import Mathlib.Data.List.Perm.Subperm
import PhysicalHarness.Protocol.Legal

namespace PhysicalHarness
namespace Protocol

open Python
open Relation (TransGen)

variable [Host]

/-!
# The ancestor walk

Two facts about the memoised depth-first walk.  Its bound is never too small: a
call on the stack is for a node that is not on the path yet, and a path without
repetitions is no longer than the list of nodes.  And what it records is sound:
every recorded ancestor reaches the node along `after` edges, also in a graph
with cycles, where the walk cuts branches but adds nothing.
-/

/-- The edge from a dependency to the node that names it. -/
def Edge (nodes : Dict String Node) (a b : String) : Prop := a ∈ afterOf nodes b

variable {nodes : Dict String Node} {next : String → Walk → Option (List String × Walk)}
  {rank : String → Nat} {memo' : Walk} {out' out : List String}

theorem visitAfter_isSome {nid : String} (total : ∀ a ∈ nodes.keys, ∀ memo, (next a memo).isSome)
    (after out : List String) (memo : Walk) :
    (visitAfter nodes next nid after out memo).isSome := by
  induction after generalizing out memo with
  | nil => rfl
  | cons a rest ih =>
      unfold visitAfter
      by_cases known : a ∈ nodes.keys
      · rw [if_pos known]
        obtain ⟨result, found⟩ := Option.isSome_iff_exists.mp (total a known memo)
        rw [found]
        exact ih _ _
      · rw [if_neg known]
        exact ih _ _

theorem walk_isSome (fuel : Nat) {nid : String} {path : List String} (memo : Walk)
    (distinct : path.Nodup) (inside : ∀ visited ∈ path, visited ∈ nodes.keys)
    (known : nid ∈ nodes.keys) (bound : nodes.keys.length < fuel + path.length) :
    (walk nodes fuel nid path memo).isSome := by
  induction fuel generalizing nid path memo with
  | zero =>
      have short : path.length ≤ nodes.keys.length :=
        (List.subperm_of_subset distinct inside).length_le
      omega
  | succ fuel ih =>
      unfold walk
      cases memo.anc.get? nid with
      | some out => rfl
      | none =>
          by_cases visited : nid ∈ path
          · simp only [if_pos visited, Option.isSome_some]
          · simp only [if_neg visited]
            have extended : (path ++ [nid]).Nodup :=
              List.nodup_append.mpr ⟨distinct, List.nodup_singleton nid, by
                intro held heldMember last lastMember same
                rw [List.mem_singleton] at lastMember
                exact visited (lastMember ▸ same ▸ heldMember)⟩
            have stillInside : ∀ other ∈ path ++ [nid], other ∈ nodes.keys := by
              intro other mem
              rcases List.mem_append.mp mem with earlier | here
              · exact inside other earlier
              · exact List.mem_singleton.mp here ▸ known
            have total : ∀ a ∈ nodes.keys, ∀ memo,
                (walk nodes fuel a (path ++ [nid]) memo).isSome := by
              intro a aKnown memo
              apply ih memo extended stillInside aKnown
              rw [List.length_append, List.length_singleton]
              omega
            obtain ⟨result, found⟩ := Option.isSome_iff_exists.mp
              (visitAfter_isSome total (afterOf nodes nid) [] memo)
            rw [found]
            rfl

theorem walkAll_isSome (ids : List String) (known : ∀ nid ∈ ids, nid ∈ nodes.keys) (memo : Walk) :
    (walkAll nodes ids memo).isSome := by
  induction ids generalizing memo with
  | nil => rfl
  | cons nid rest ih =>
      unfold walkAll
      have one := walk_isSome (nodes.keys.length + 1) memo List.nodup_nil
        (List.forall_mem_nil _)
        (known nid List.mem_cons_self) (by simp)
      obtain ⟨result, found⟩ := Option.isSome_iff_exists.mp one
      rw [found]
      exact ih (fun other mem => known other (.tail nid mem)) _

theorem walkAll_eq_ancestors (nodes : Dict String Node) :
    walkAll nodes nodes.keys Walk.start = some (ancestors nodes) := by
  obtain ⟨memo, found⟩ := Option.isSome_iff_exists.mp
    (walkAll_isSome nodes.keys (fun _ mem => mem) Walk.start)
  rw [ancestors, found, Option.getD_some]

theorem visitAfter_cons {nid a : String} {rest : List String} {memo : Walk}
    (found : visitAfter nodes next nid (a :: rest) out memo = some (out', memo')) :
    (a ∈ nodes.keys ∧ ∃ more between, next a memo = some (more, between) ∧
      visitAfter nodes next nid rest (out ∪ [a] ∪ more) between = some (out', memo')) ∨
    (a ∉ nodes.keys ∧
      visitAfter nodes next nid rest out (memo.report (unknownAfter nid a)) = some (out', memo')) := by
  unfold visitAfter at found
  by_cases known : a ∈ nodes.keys
  · rw [if_pos known] at found
    cases step : next a memo with
    | none =>
        rw [step] at found
        cases found
    | some result =>
        rw [step] at found
        exact Or.inl ⟨known, result.1, result.2, rfl, found⟩
  · rw [if_neg known] at found
    exact Or.inr ⟨known, found⟩

/-- What a call of the walk returns. -/
inductive Walked (nodes : Dict String Node) (fuel : Nat) (nid : String) (path : List String)
    (memo : Walk) : List String → Walk → Prop where
  | cached {out : List String} (recorded : memo.anc.get? nid = some out) :
      Walked nodes fuel nid path memo out memo
  | cycle {problem : String} (visited : nid ∈ path) :
      Walked nodes fuel nid path memo [] (memo.report problem)
  | visit {out : List String} {between : Walk}
      (went : visitAfter nodes (fun a memo => walk nodes fuel a (path ++ [nid]) memo) nid
        (afterOf nodes nid) [] memo = some (out, between)) :
      Walked nodes fuel nid path memo out { between with anc := between.anc.set nid out }

theorem walked_of_walk {fuel : Nat} {nid : String} {path : List String} {memo : Walk}
    (found : walk nodes (fuel + 1) nid path memo = some (out, memo')) :
    Walked nodes fuel nid path memo out memo' := by
  unfold walk at found
  cases recorded : memo.anc.get? nid with
  | some known =>
      rw [recorded] at found
      cases found
      exact .cached recorded
  | none =>
      simp only [recorded] at found
      by_cases visited : nid ∈ path
      · rw [if_pos visited] at found
        cases found
        exact .cycle visited
      · rw [if_neg visited] at found
        cases went : visitAfter nodes (fun a memo => walk nodes fuel a (path ++ [nid]) memo) nid
            (afterOf nodes nid) [] memo with
        | none =>
            rw [went] at found
            cases found
        | some result =>
            rw [went] at found
            cases found
            exact .visit went

theorem walkAll_cons {nid : String} {rest : List String} {memo : Walk}
    (found : walkAll nodes (nid :: rest) memo = some memo') :
    ∃ out between, walk nodes (nodes.keys.length + 1) nid [] memo = some (out, between) ∧
      walkAll nodes rest between = some memo' := by
  unfold walkAll at found
  cases step : walk nodes (nodes.keys.length + 1) nid [] memo with
  | none =>
      rw [step] at found
      cases found
  | some result =>
      rw [step] at found
      exact ⟨result.1, result.2, rfl, found⟩

omit [Host] in
/-- What holds of every record still holds when one is set for which it holds. -/
theorem recorded_set {anc : Dict String (List String)} {holds : String → List String → Prop}
    {nid : String} (here : holds nid out) (held : ∀ nid out, anc.get? nid = some out → holds nid out) :
    ∀ other more, (anc.set nid out).get? other = some more → holds other more := by
  intro other more found
  rw [Dict.get?_set] at found
  by_cases same : nid = other
  · rw [if_pos same] at found
    cases found
    exact same ▸ here
  · rw [if_neg same] at found
    exact held other more found

/-- Every recorded ancestor reaches its node along `after` edges. -/
def Sound (nodes : Dict String Node) (anc : Dict String (List String)) : Prop :=
  ∀ nid out, anc.get? nid = some out → ∀ a ∈ out, TransGen (Edge nodes) a nid

theorem visitAfter_sound {nid : String}
    (sound : ∀ a memo more memo', next a memo = some (more, memo') → Sound nodes memo.anc →
      (∀ b ∈ more, TransGen (Edge nodes) b a) ∧ Sound nodes memo'.anc) (after out : List String)
    (memo : Walk) (found : visitAfter nodes next nid after out memo = some (out', memo'))
    (declared : ∀ a ∈ after, Edge nodes a nid) (reached : ∀ a ∈ out, TransGen (Edge nodes) a nid)
    (soundMemo : Sound nodes memo.anc) :
    (∀ a ∈ out', TransGen (Edge nodes) a nid) ∧ Sound nodes memo'.anc := by
  induction after generalizing out memo with
  | nil =>
      cases found
      exact ⟨reached, soundMemo⟩
  | cons a rest ih =>
      have edge : Edge nodes a nid := declared a (.head _)
      have others : ∀ b ∈ rest, Edge nodes b nid := fun b mem =>
        declared b (.tail a mem)
      rcases visitAfter_cons found with ⟨_, more, middle, here, later⟩ | ⟨_, later⟩
      · obtain ⟨moreReached, middleSound⟩ := sound a memo more middle here soundMemo
        refine ih (out ∪ [a] ∪ more) middle later others ?_ middleSound
        intro b mem
        rcases List.mem_union_iff.mp mem with earlier | beyond
        · rcases List.mem_union_iff.mp earlier with old | self
          · exact reached b old
          · exact List.mem_singleton.mp self ▸ TransGen.single edge
        · exact TransGen.tail (moreReached b beyond) edge
      · exact ih out _ later others reached soundMemo

theorem walk_sound (fuel : Nat) (nid : String) (path : List String) (memo : Walk)
    (out : List String) (memo' : Walk) (found : walk nodes fuel nid path memo = some (out, memo'))
    (soundMemo : Sound nodes memo.anc) :
    (∀ a ∈ out, TransGen (Edge nodes) a nid) ∧ Sound nodes memo'.anc := by
  induction fuel generalizing nid path memo out memo' with
  | zero => cases found
  | succ fuel ih =>
      cases walked_of_walk found with
      | cached recorded => exact ⟨soundMemo nid out recorded, soundMemo⟩
      | cycle _ => exact ⟨List.forall_mem_nil _, soundMemo⟩
      | visit went =>
          obtain ⟨reached, middleSound⟩ := visitAfter_sound
            (fun a memo more memo' => ih a (path ++ [nid]) memo more memo')
            (afterOf nodes nid) [] memo went (fun a mem => mem) (List.forall_mem_nil _) soundMemo
          exact ⟨reached, recorded_set reached middleSound⟩

theorem walkAll_sound (ids : List String) (memo memo' : Walk)
    (found : walkAll nodes ids memo = some memo') (soundMemo : Sound nodes memo.anc) :
    Sound nodes memo'.anc := by
  induction ids generalizing memo with
  | nil =>
      cases found
      exact soundMemo
  | cons nid rest ih =>
      obtain ⟨out, middle, one, later⟩ := walkAll_cons found
      exact ih middle later (walk_sound _ nid [] memo out middle one soundMemo).2

theorem ancestors_sound (nodes : Dict String Node) : Sound nodes (ancestors nodes).anc :=
  walkAll_sound nodes.keys Walk.start (ancestors nodes) (walkAll_eq_ancestors nodes)
    (fun _ _ never => by cases never)

theorem transGen_of_before {a b : String} (precedes : before (ancestors nodes).anc a b = true) :
    TransGen (Edge nodes) a b := by
  unfold before at precedes
  cases recorded : (ancestors nodes).anc.get? b with
  | none => simp [recorded] at precedes
  | some out =>
      rw [recorded, Option.getD_some, List.contains_iff_mem] at precedes
      exact ancestors_sound nodes b out recorded a precedes

theorem indexNodes_clean {nodes : List Node} {seen : Dict String Node}
    (clean : (indexNodes nodes seen).2 = []) :
    (nodes.map Node.id).Nodup ∧ (∀ node ∈ nodes, node.id ∉ seen.keys) ∧
      (∀ node ∈ nodes, (indexNodes nodes seen).1.get? node.id = some node) ∧
      (∀ id, id ∉ nodes.map Node.id → (indexNodes nodes seen).1.get? id = seen.get? id) := by
  induction nodes generalizing seen with
  | nil =>
      exact ⟨List.nodup_nil, List.forall_mem_nil _,
        List.forall_mem_nil _, fun _ _ => rfl⟩
  | cons node rest ih =>
      have fresh : node.id ∉ seen.keys := by
        intro held
        simp [indexNodes, held] at clean
      have tailClean : (indexNodes rest (seen.set node.id node)).2 = [] := by
        simpa [indexNodes, fresh] using clean
      obtain ⟨distinct, unseen, found, others⟩ := ih tailClean
      have notLater : node.id ∉ rest.map Node.id := by
        intro mem
        obtain ⟨later, laterMember, same⟩ := List.mem_map.mp mem
        exact unseen later laterMember ((Dict.mem_keys_set _ _ _ _).mpr (Or.inl same))
      refine ⟨List.nodup_cons.mpr ⟨notLater, distinct⟩, ?_, ?_, ?_⟩
      · intro other mem
        rcases List.mem_cons.mp mem with same | later
        · exact same ▸ fresh
        · intro held
          exact unseen other later ((Dict.mem_keys_set _ _ _ _).mpr (Or.inr held))
      · intro other mem
        rcases List.mem_cons.mp mem with same | later
        · subst same
          have kept := others other.id notLater
          simpa [indexNodes] using kept
        · simpa [indexNodes] using found other later
      · intro id absent
        rw [List.map_cons, List.mem_cons, not_or] at absent
        have kept := others id absent.2
        simpa [indexNodes, Ne.symm absent.1] using kept

theorem indexNodes_of_nodup {nodes : List Node} {seen : Dict String Node}
    (distinct : (nodes.map Node.id).Nodup) (unseen : ∀ node ∈ nodes, node.id ∉ seen.keys) :
    (indexNodes nodes seen).2 = [] ∧
      (indexNodes nodes seen).1.keys = seen.keys ++ nodes.map Node.id := by
  induction nodes generalizing seen with
  | nil => exact ⟨rfl, (List.append_nil _).symm⟩
  | cons node rest ih =>
      rw [List.map_cons, List.nodup_cons] at distinct
      have fresh := unseen node (.head _)
      have later : ∀ other ∈ rest, other.id ∉ (seen.set node.id node).keys := by
        intro other mem held
        rcases (Dict.mem_keys_set _ _ _ _).mp held with same | old
        · exact distinct.1 (same ▸ List.mem_map_of_mem mem)
        · exact unseen other (.tail _ mem) old
      obtain ⟨clean, keysEq⟩ := ih distinct.2 later
      constructor
      · simp [indexNodes, fresh, clean]
      · rw [indexNodes]
        dsimp only
        rw [keysEq, Dict.keys_set_of_not_mem fresh, List.append_assoc]
        rfl

structure Ranked (nodes : Dict String Node) (rank : String → Nat) : Prop where
  known : ∀ nid ∈ nodes.keys, ∀ a ∈ afterOf nodes nid, a ∈ nodes.keys
  lower : ∀ nid ∈ nodes.keys, ∀ a ∈ afterOf nodes nid, rank a < rank nid

omit [Host] in
/-- A path above a node stays above what the node waits for. -/
theorem Ranked.above_snoc (ranked : Ranked nodes rank) {nid a : String} {path : List String}
    (known : nid ∈ nodes.keys) (above : ∀ visited ∈ path, rank nid < rank visited)
    (declared : a ∈ afterOf nodes nid) : ∀ visited ∈ path ++ [nid], rank a < rank visited := by
  intro visited mem
  have lower := ranked.lower nid known a declared
  rcases List.mem_append.mp mem with old | new
  · exact Nat.lt_trans lower (above visited old)
  · exact List.mem_singleton.mp new ▸ lower

theorem visitAfter_clean {nid : String} (after out : List String) (memo : Walk)
    (clean : ∀ a ∈ after, ∀ memo more memo', next a memo = some (more, memo') →
      memo'.problems = memo.problems) (known : ∀ a ∈ after, a ∈ nodes.keys)
    (found : visitAfter nodes next nid after out memo = some (out', memo')) :
    memo'.problems = memo.problems := by
  induction after generalizing out memo with
  | nil =>
      cases found
      rfl
  | cons a rest ih =>
      rcases visitAfter_cons found with ⟨_, more, between, step, later⟩ | ⟨unknown, _⟩
      · have tail := ih (out ∪ [a] ∪ more) between
          (fun b mem => clean b (.tail _ mem))
          (fun b mem => known b (.tail _ mem)) later
        rw [tail, clean a List.mem_cons_self memo more between step]
      · exact absurd (known a (.head _)) unknown

/-- The path above a node only holds nodes of higher rank, so the walk neither
meets an unknown node nor closes a cycle. -/
theorem walk_clean (ranked : Ranked nodes rank) (fuel : Nat) (nid : String) (path : List String)
    (memo : Walk) (known : nid ∈ nodes.keys) (above : ∀ visited ∈ path, rank nid < rank visited)
    (found : walk nodes fuel nid path memo = some (out, memo')) :
    memo'.problems = memo.problems := by
  induction fuel generalizing nid path memo out memo' with
  | zero => cases found
  | succ fuel ih =>
      cases walked_of_walk found with
      | cached recorded => rfl
      | cycle visited => exact absurd (above nid visited) (Nat.lt_irrefl _)
      | visit went =>
          have clean := visitAfter_clean _ _ _ (fun a declared earlier more later step =>
            ih a (path ++ [nid]) earlier (ranked.known nid known a declared)
              (ranked.above_snoc known above declared) step) (ranked.known nid known) went
          exact clean

theorem walkAll_clean (ranked : Ranked nodes rank) (ids : List String)
    (known : ∀ nid ∈ ids, nid ∈ nodes.keys) (memo : Walk)
    (found : walkAll nodes ids memo = some memo') : memo'.problems = memo.problems := by
  induction ids generalizing memo with
  | nil =>
      cases found
      rfl
  | cons nid rest ih =>
      obtain ⟨out, between, step, later⟩ := walkAll_cons found
      have tail := ih (fun other mem => known other (.tail _ mem)) between later
      rw [tail, walk_clean ranked _ nid [] memo (known nid List.mem_cons_self)
        (List.forall_mem_nil _) step]

theorem ancestors_clean (ranked : Ranked nodes rank) : (ancestors nodes).problems = [] :=
  walkAll_clean ranked nodes.keys (fun _ mem => mem) Walk.start (walkAll_eq_ancestors nodes)

structure InOrder (nodes : List Node) : Prop where
  distinct : (nodes.map Node.id).Nodup
  earlier : ∀ first node rest, nodes = first ++ node :: rest →
    ∀ a ∈ node.after, a ∈ first.map Node.id

theorem InOrder.ranked {nodes : List Node} (inOrder : InOrder nodes) :
    Ranked (indexNodes nodes Dict.empty).1 ((nodes.map Node.id).idxOf ·) := by
  have indexed : (indexNodes nodes Dict.empty).2 = [] ∧
      (indexNodes nodes Dict.empty).1.keys = Dict.empty.keys ++ nodes.map Node.id :=
    indexNodes_of_nodup inOrder.distinct (fun _ _ never => by cases never)
  obtain ⟨clean, keysEq⟩ := indexed
  obtain ⟨_, _, found, _⟩ := indexNodes_clean clean
  have dependency : ∀ nid ∈ (indexNodes nodes Dict.empty).1.keys,
      ∀ a ∈ afterOf (indexNodes nodes Dict.empty).1 nid, ∃ first node rest,
        nodes = first ++ node :: rest ∧ node.id = nid ∧ a ∈ first.map Node.id := by
    intro nid known a declared
    rw [keysEq, Dict.keys_empty, List.nil_append] at known
    obtain ⟨node, mem, same⟩ := List.mem_map.mp known
    subst same
    obtain ⟨first, rest, split⟩ := List.append_of_mem mem
    rw [afterOf, found node mem] at declared
    exact ⟨first, node, rest, split, rfl, inOrder.earlier first node rest split a declared⟩
  constructor
  · intro nid known a declared
    obtain ⟨first, node, rest, split, _, before⟩ := dependency nid known a declared
    rw [keysEq, Dict.keys_empty, List.nil_append, split, List.map_append]
    exact List.mem_append_left _ before
  · intro nid known a declared
    obtain ⟨first, node, rest, split, same, before⟩ := dependency nid known a declared
    have distinct := inOrder.distinct
    rw [split, List.map_append, List.map_cons] at distinct ⊢
    have absent : nid ∉ first.map Node.id := by
      intro mem
      have apart := (List.nodup_append.mp distinct).2.2 nid mem node.id (.head _)
      exact apart same.symm
    rw [List.idxOf_append_of_mem before, List.idxOf_append_of_notMem absent]
    exact Nat.lt_of_lt_of_le (List.idxOf_lt_length_of_mem before) (Nat.le_add_right _ _)

/-- A recorded set holds everything that reaches its node along `after` edges. -/
def Complete (nodes : Dict String Node) (anc : Dict String (List String)) : Prop :=
  ∀ nid out, anc.get? nid = some out → ∀ a, TransGen (Edge nodes) a nid → a ∈ out

theorem visitAfter_complete {nid : String} (after out : List String) (memo : Walk)
    (complete : ∀ a ∈ after, ∀ memo more memo', next a memo = some (more, memo') →
      Complete nodes memo.anc →
        (∀ b, TransGen (Edge nodes) b a → b ∈ more) ∧ Complete nodes memo'.anc)
    (known : ∀ a ∈ after, a ∈ nodes.keys)
    (found : visitAfter nodes next nid after out memo = some (out', memo'))
    (completeMemo : Complete nodes memo.anc) :
    (∀ a ∈ out, a ∈ out') ∧
      (∀ a ∈ after, a ∈ out' ∧ ∀ b, TransGen (Edge nodes) b a → b ∈ out') ∧
      Complete nodes memo'.anc := by
  induction after generalizing out memo with
  | nil =>
      cases found
      exact ⟨fun _ mem => mem, List.forall_mem_nil _,
        completeMemo⟩
  | cons a rest ih =>
      rcases visitAfter_cons found with ⟨_, more, between, step, went⟩ | ⟨unknown, _⟩
      · obtain ⟨all, completeBetween⟩ :=
          complete a (.head _) memo more between step completeMemo
        obtain ⟨kept, others, last⟩ := ih (out ∪ [a] ∪ more) between
          (fun b mem => complete b (.tail _ mem))
          (fun b mem => known b (.tail _ mem)) went completeBetween
        simp only [List.mem_union_iff, List.mem_singleton] at kept
        refine ⟨fun b mem => kept b (Or.inl (Or.inl mem)), ?_, last⟩
        intro b mem
        rcases List.mem_cons.mp mem with same | later
        · exact ⟨kept b (Or.inl (Or.inr same)), fun c reaches => kept c (Or.inr (all c (same ▸ reaches)))⟩
        · exact others b later
      · exact absurd (known a (.head _)) unknown

theorem walk_complete (ranked : Ranked nodes rank) (fuel : Nat) (nid : String) (path : List String)
    (memo : Walk) (known : nid ∈ nodes.keys) (above : ∀ visited ∈ path, rank nid < rank visited)
    (found : walk nodes fuel nid path memo = some (out, memo'))
    (completeMemo : Complete nodes memo.anc) :
    (∀ a, TransGen (Edge nodes) a nid → a ∈ out) ∧ Complete nodes memo'.anc := by
  induction fuel generalizing nid path memo out memo' with
  | zero => cases found
  | succ fuel ih =>
      cases walked_of_walk found with
      | cached recorded => exact ⟨completeMemo nid out recorded, completeMemo⟩
      | cycle visited => exact absurd (above nid visited) (Nat.lt_irrefl _)
      | visit went =>
          obtain ⟨_, each, completeBetween⟩ := visitAfter_complete (afterOf nodes nid) [] memo
            (fun a declared earlier more later step => ih a (path ++ [nid]) earlier
              (ranked.known nid known a declared) (ranked.above_snoc known above declared) step)
            (ranked.known nid known) went completeMemo
          -- the last edge of a path into the node is one of its own `after`
          have all : ∀ a, TransGen (Edge nodes) a nid → a ∈ out := by
            intro a reaches
            cases reaches with
            | single edge => exact (each a edge).1
            | tail before edge => exact (each _ edge).2 a before
          exact ⟨all, recorded_set all completeBetween⟩

theorem visitAfter_keeps {nid other : String}
    (keeps : ∀ a memo more memo', next a memo = some (more, memo') →
      (memo.anc.get? other).isSome → (memo'.anc.get? other).isSome) (after out : List String)
    (memo : Walk) (found : visitAfter nodes next nid after out memo = some (out', memo'))
    (held : (memo.anc.get? other).isSome) : (memo'.anc.get? other).isSome := by
  induction after generalizing out memo with
  | nil =>
      cases found
      exact held
  | cons a rest ih =>
      rcases visitAfter_cons found with ⟨_, more, between, step, later⟩ | ⟨_, later⟩
      · exact ih _ between later (keeps a memo more between step held)
      · exact ih _ _ later held

theorem walk_keeps {other : String} (fuel : Nat) (nid : String) (path : List String) (memo : Walk)
    (found : walk nodes fuel nid path memo = some (out, memo'))
    (held : (memo.anc.get? other).isSome) : (memo'.anc.get? other).isSome := by
  induction fuel generalizing nid path memo out memo' with
  | zero => cases found
  | succ fuel ih =>
      cases walked_of_walk found with
      | cached _ => exact held
      | cycle _ => exact held
      | visit went =>
          have kept := visitAfter_keeps (fun a earlier more later step => ih a (path ++ [nid]) earlier step)
            (afterOf nodes nid) [] memo went held
          simp only [Dict.get?_set]
          by_cases same : nid = other
          · rw [if_pos same]
            rfl
          · rw [if_neg same]
            exact kept

theorem walk_records {fuel : Nat} {nid : String} {memo : Walk}
    (found : walk nodes fuel nid [] memo = some (out, memo')) :
    (memo'.anc.get? nid).isSome := by
  cases fuel with
  | zero => cases found
  | succ fuel =>
      cases walked_of_walk found with
      | cached recorded =>
          rw [recorded]
          rfl
      | cycle visited => cases visited
      | visit _ => simp [Dict.get?_set]

theorem walkAll_complete (ranked : Ranked nodes rank) (ids : List String)
    (known : ∀ nid ∈ ids, nid ∈ nodes.keys) (memo : Walk)
    (found : walkAll nodes ids memo = some memo') (completeMemo : Complete nodes memo.anc) :
    Complete nodes memo'.anc ∧
      ∀ nid, nid ∈ ids ∨ (memo.anc.get? nid).isSome → (memo'.anc.get? nid).isSome := by
  induction ids generalizing memo with
  | nil =>
      cases found
      refine ⟨completeMemo, fun nid held => ?_⟩
      exact held.resolve_left List.not_mem_nil
  | cons nid rest ih =>
      obtain ⟨out, between, step, went⟩ := walkAll_cons found
      have completeBetween := (walk_complete ranked _ nid [] memo (known nid (.head _))
        (List.forall_mem_nil _) step completeMemo).2
      obtain ⟨last, recorded⟩ := ih (fun other mem => known other (.tail _ mem))
        between went completeBetween
      refine ⟨last, fun other held => recorded other ?_⟩
      rcases held with listed | old
      · rcases List.mem_cons.mp listed with same | later
        · exact Or.inr (same ▸ walk_records step)
        · exact Or.inl later
      · exact Or.inr (walk_keeps _ nid [] memo step old)

theorem before_iff_transGen (ranked : Ranked nodes rank) {a b : String} :
    before (ancestors nodes).anc a b = true ↔ TransGen (Edge nodes) a b := by
  refine ⟨transGen_of_before, fun reaches => ?_⟩
  obtain ⟨complete, recorded⟩ := walkAll_complete ranked nodes.keys (fun _ mem => mem)
    Walk.start (walkAll_eq_ancestors nodes) (fun _ _ never => by cases never)
  have known : b ∈ nodes.keys := by
    have declared : ∃ c, c ∈ afterOf nodes b := by
      cases reaches with
      | single edge => exact ⟨_, edge⟩
      | tail _ edge => exact ⟨_, edge⟩
    obtain ⟨c, edge⟩ := declared
    by_contra unknown
    rw [afterOf, (Dict.get?_eq_none_iff _ _).mpr unknown] at edge
    cases edge
  obtain ⟨out, found⟩ := Option.isSome_iff_exists.mp (recorded b (Or.inl known))
  rw [before, found, Option.getD_some, List.contains_iff_mem]
  exact complete b out found a reaches

end Protocol
end PhysicalHarness
