import Mathlib.Data.List.Forall2

/-!
# Computations that may raise

Rules for computations in `Except`: when a sequence returns, when it raises, and
the same for the two loops that run such a computation over a list.  A program
written as a sequence of checks is taken apart with these rules, without
unfolding the monad.
-/

namespace Fallible

universe u v

variable {ε : Type u} {α β : Type v}

variable {run next : α → Except ε β} {items : List α} {results : List β} {first : Except ε α}
  {γ σ : Type v}

theorem bind_eq_ok {result : β} :
    (first >>= next) = .ok result ↔
      ∃ value, first = .ok value ∧ next value = .ok result := by
  cases first with
  | error error =>
      constructor
      · exact nofun
      · rintro ⟨value, never, _⟩
        cases never
  | ok value =>
      constructor
      · intro rest
        exact ⟨value, rfl, rest⟩
      · rintro ⟨other, same, rest⟩
        cases same
        exact rest

theorem of_bind {result : β} (ran : (first >>= next) = .ok result) :
    ∃ value, first = .ok value ∧ next value = .ok result :=
  bind_eq_ok.mp ran

theorem bind_eq_error {error : ε} :
    (first >>= next) = .error error ↔
      first = .error error ∨ ∃ value, first = .ok value ∧ next value = .error error := by
  cases first with
  | error other =>
      constructor
      · intro same
        exact Or.inl (by cases same; rfl)
      · rintro (same | ⟨value, never, _⟩)
        · cases same
          rfl
        · cases never
  | ok value =>
      constructor
      · intro rest
        exact Or.inr ⟨value, rfl, rest⟩
      · rintro (never | ⟨other, same, rest⟩)
        · cases never
        · cases same
          exact rest

theorem map_eq_ok {run : Except ε α} {next : α → β} {result : β} :
    run.map next = .ok result ↔ ∃ value, run = .ok value ∧ next value = result := by
  cases run with
  | error error =>
      constructor
      · exact nofun
      · rintro ⟨value, never, _⟩
        cases never
  | ok value =>
      constructor
      · intro same
        cases same
        exact ⟨value, rfl, rfl⟩
      · rintro ⟨other, same, rest⟩
        cases same
        exact congrArg Except.ok rest

theorem map_eq_error {run : Except ε α} {next : α → β} {error : ε} :
    run.map next = .error error ↔ run = .error error := by
  cases run with
  | error other =>
      constructor
      · intro same
        cases same
        rfl
      · intro same
        cases same
        rfl
  | ok value =>
      constructor
      · exact nofun
      · exact nofun

theorem mapError_eq_ok {δ : Type*} {run : Except ε α} {raise : ε → δ} {value : α} :
    run.mapError raise = .ok value ↔ run = .ok value := by
  cases run with
  | error error => exact ⟨nofun, nofun⟩
  | ok result =>
      constructor
      · intro same
        exact congrArg Except.ok (Except.ok.inj same)
      · intro same
        exact congrArg Except.ok (Except.ok.inj same)

@[simp] theorem pure_eq_ok (value : α) : (pure value : Except ε α) = .ok value := rfl

@[simp] theorem bind_ok (value : α) (next : α → Except ε β) :
    (Except.ok value >>= next) = next value := rfl

@[simp] theorem bind_error (error : ε) (next : α → Except ε β) :
    (Except.error error >>= next) = .error error := rfl

/-- The computation returns. -/
def Returns (run : Except ε α) : Prop := ∃ value, run = .ok value

@[simp] theorem returns_ok (value : α) : Returns (.ok value : Except ε α) := ⟨value, rfl⟩

theorem toOption_eq_some_iff {run : Except ε α} {value : α} :
    run.toOption = some value ↔ run = .ok value := by
  cases run with
  | ok other => exact ⟨fun same => congrArg _ (Option.some.inj same), fun same => congrArg _ (Except.ok.inj same)⟩
  | error error =>
      constructor
      · exact nofun
      · exact nofun

theorem returns_of_toBool {run : Except ε α} (ended : run.toBool = true) : Returns run := by
  cases run with
  | error error => cases ended
  | ok value => exact ⟨value, rfl⟩

@[simp] theorem not_returns_error (error : ε) : ¬ Returns (.error error : Except ε α) := by
  rintro ⟨value, never⟩
  cases never

theorem returns_bind :
    Returns (first >>= next) ↔ ∃ value, first = .ok value ∧ Returns (next value) := by
  constructor
  · rintro ⟨result, whole⟩
    obtain ⟨value, here, there⟩ := of_bind whole
    exact ⟨value, here, result, there⟩
  · rintro ⟨value, here, result, there⟩
    exact ⟨result, bind_eq_ok.mpr ⟨value, here, there⟩⟩

theorem returns_map {next : α → β} :
    Returns (next <$> first) ↔ Returns first := by
  cases first with
  | error error =>
      constructor <;> (rintro ⟨value, never⟩; cases never)
  | ok value => exact ⟨fun _ => ⟨value, rfl⟩, fun _ => ⟨next value, rfl⟩⟩

/-! ## Loops over a list -/

theorem mapM_nil (run : α → Except ε β) : [].mapM run = .ok [] := rfl

theorem mapM_eq_ok_iff :
    items.mapM run = .ok results ↔
      List.Forall₂ (fun item result => run item = .ok result) items results := by
  induction items generalizing results with
  | nil =>
      rw [List.mapM_nil, pure_eq_ok, List.forall₂_nil_left_iff]
      constructor
      · intro same
        exact (Except.ok.inj same).symm
      · intro same
        rw [same]
  | cons item rest ih =>
      rw [List.mapM_cons, bind_eq_ok]
      constructor
      · rintro ⟨value, here, tail⟩
        obtain ⟨values, there, whole⟩ := of_bind tail
        cases whole
        exact List.Forall₂.cons here (ih.mp there)
      · intro related
        cases related with
        | cons here there =>
            exact ⟨_, here, bind_eq_ok.mpr ⟨_, ih.mpr there, rfl⟩⟩

theorem exists_mem_of_mapM (ran : items.mapM run = .ok results) {result : β}
    (mem : result ∈ results) :
    ∃ item ∈ items, run item = .ok result := by
  have related := mapM_eq_ok_iff.mp ran
  clear ran
  induction related with
  | nil => cases mem
  | cons here _ ih =>
      rcases List.mem_cons.mp mem with same | later
      · exact ⟨_, List.mem_cons_self, same ▸ here⟩
      · obtain ⟨item, itemMember, found⟩ := ih later
        exact ⟨item, .tail _ itemMember, found⟩

theorem map_eq_of_forall₂ {α β γ : Type*} {related : α → β → Prop} {items : List α}
    {results : List β} (along : List.Forall₂ related items results) {before : α → γ}
    {after : β → γ} (keeps : ∀ item result, related item result → after result = before item) :
    results.map after = items.map before := by
  induction along with
  | nil => rfl
  | cons here _ ih => rw [List.map_cons, List.map_cons, keeps _ _ here, ih]

theorem exists_right_of_forall₂ {α β : Type*} {related : α → β → Prop} {items : List α}
    {others : List β} (each : List.Forall₂ related items others) {item : α} (mem : item ∈ items) :
    ∃ other ∈ others, related item other := by
  induction each with
  | nil => cases mem
  | cons here _ ih =>
      rcases List.mem_cons.mp mem with rfl | later
      · exact ⟨_, .head _, here⟩
      · rcases ih later with ⟨other, listed, holds⟩
        exact ⟨other, .tail _ listed, holds⟩

theorem exists_left_of_forall₂ {α β : Type*} {related : α → β → Prop} {items : List α}
    {others : List β} (each : List.Forall₂ related items others) {other : β} (mem : other ∈ others) :
    ∃ item ∈ items, related item other :=
  exists_right_of_forall₂ (List.Forall₂.flip each) mem

theorem forall₂_split_right {α β : Type*} {related : α → β → Prop} {items : List α}
    {first rest : List β} {result : β}
    (along : List.Forall₂ related items (first ++ result :: rest)) :
    ∃ before item after, items = before ++ item :: after ∧
      List.Forall₂ related before first ∧ related item result := by
  induction first generalizing items with
  | nil =>
      cases along with
      | cons here _ => exact ⟨[], _, _, rfl, List.Forall₂.nil, here⟩
  | cons head first ih =>
      cases along with
      | cons here there =>
          obtain ⟨before, item, after, split, aligned, there⟩ := ih there
          exact ⟨_ :: before, item, after, by rw [split]; rfl,
            List.Forall₂.cons here aligned, there⟩

theorem forall₂_join {α β γ : Type*} {first : α → β → Prop} {second : α → γ → Prop}
    {items : List α} {results : List β} {others : List γ}
    (left : List.Forall₂ first items results) (right : List.Forall₂ second items others) :
    List.Forall₂ (fun result other => ∃ item ∈ items, first item result ∧ second item other)
      results others := by
  induction left generalizing others with
  | nil =>
      cases right
      exact List.Forall₂.nil
  | cons here _ ih =>
      cases right with
      | cons there rest =>
          refine List.Forall₂.cons ⟨_, .head _, here, there⟩ ((ih rest).imp ?_)
          rintro result other ⟨item, mem, both⟩
          exact ⟨item, .tail _ mem, both⟩


theorem map_eq_of_mapM (ran : items.mapM run = .ok results) {before : α → γ} {after : β → γ}
    (keeps : ∀ item result, run item = .ok result → after result = before item) :
    results.map after = items.map before :=
  map_eq_of_forall₂ (mapM_eq_ok_iff.mp ran) keeps

theorem forall₂_of_mapM (ran : items.mapM run = .ok results) {view : α → γ} {related : γ → β → Prop}
    (each : ∀ item ∈ items, ∀ result, run item = .ok result → related (view item) result) :
    List.Forall₂ related (items.map view) results := by
  have along := mapM_eq_ok_iff.mp ran
  clear ran
  induction along with
  | nil => exact List.Forall₂.nil
  | cons here _ ih =>
      exact List.Forall₂.cons (each _ (.head _) _ here)
        (ih (fun item mem => each item (.tail _ mem)))

theorem exists_result_of_mapM (ran : items.mapM run = .ok results) {item : α}
    (mem : item ∈ items) :
    ∃ result ∈ results, run item = .ok result := by
  have both := mapM_eq_ok_iff.mp ran
  clear ran
  induction both with
  | nil => cases mem
  | cons here later ih =>
      rcases List.mem_cons.mp mem with rfl | further
      · exact ⟨_, .head _, here⟩
      · rcases ih further with ⟨result, listed, same⟩
        exact ⟨result, .tail _ listed, same⟩

theorem returns_both {first : Except ε α} {second : Except ε β} (join : α → β → γ) :
    Returns (first >>= fun here => second >>= fun there => .ok (join here there)) ↔
      Returns first ∧ Returns second := by
  constructor
  · intro returned
    obtain ⟨value, here, tail⟩ := returns_bind.mp returned
    obtain ⟨values, there, _⟩ := returns_bind.mp tail
    exact ⟨⟨value, here⟩, values, there⟩
  · rintro ⟨⟨value, here⟩, values, there⟩
    exact returns_bind.mpr ⟨value, here, returns_bind.mpr ⟨values, there, join value values, rfl⟩⟩

theorem returns_mapM_iff :
    Returns (items.mapM run) ↔ ∀ item ∈ items, Returns (run item) := by
  induction items with
  | nil =>
      constructor
      · intro _ item mem
        cases mem
      · intro _
        exact ⟨[], rfl⟩
  | cons item rest ih =>
      rw [List.mapM_cons, List.forall_mem_cons, ← ih]
      exact returns_both List.cons

def collect (run : α → Except ε (List β)) : List α → Except ε (List β)
  | [] => .ok []
  | item :: rest => do
      let here ← run item
      let there ← collect run rest
      return here ++ there

theorem collect_eq_nil_iff {run : α → Except ε (List β)} :
    collect run items = .ok [] ↔ ∀ item ∈ items, run item = .ok [] := by
  induction items with
  | nil => simp [collect]
  | cons item rest ih =>
      rw [collect, bind_eq_ok]
      constructor
      · rintro ⟨here, first, tail⟩ other mem
        obtain ⟨there, second, whole⟩ := of_bind tail
        have empty := List.append_eq_nil_iff.mp (Except.ok.inj whole)
        rcases List.mem_cons.mp mem with same | later
        · rw [same, first, empty.1]
        · rw [empty.2] at second
          exact ih.mp second other later
      · intro each
        have tail := ih.mpr (fun other mem => each other (.tail _ mem))
        exact ⟨[], each item (.head _), bind_eq_ok.mpr ⟨[], tail, rfl⟩⟩

theorem returns_collect_iff {run : α → Except ε (List β)} :
    Returns (collect run items) ↔ ∀ item ∈ items, Returns (run item) := by
  induction items with
  | nil => simp [collect]
  | cons item rest ih =>
      rw [collect, List.forall_mem_cons, ← ih]
      exact returns_both List.append

theorem mem_collect {run : α → Except ε (List β)} {found : List β}
    (collected : collect run items = .ok found) {value : β} :
    value ∈ found ↔ ∃ item ∈ items, ∃ here, run item = .ok here ∧ value ∈ here := by
  induction items generalizing found with
  | nil =>
      cases collected
      simp
  | cons item rest ih =>
      rw [collect, bind_eq_ok] at collected
      rcases collected with ⟨here, first, tail⟩
      rcases of_bind tail with ⟨there, second, whole⟩
      cases whole
      simp only [List.mem_append, ih second, List.exists_mem_cons_iff, first, Except.ok.injEq,
        exists_eq_left']

theorem returns_foldlM_iff {step : σ → α → Except ε σ} {good : α → Prop}
    (each : ∀ state item, Returns (step state item) ↔ good item) (items : List α) (state : σ) :
    Returns (items.foldlM step state) ↔ ∀ item ∈ items, good item := by
  induction items generalizing state with
  | nil => exact ⟨fun _ _ never => absurd never List.not_mem_nil, fun _ => ⟨state, rfl⟩⟩
  | cons item rest ih =>
      rw [List.foldlM_cons, returns_bind, List.forall_mem_cons]
      constructor
      · intro ran
        rcases ran with ⟨next, here, later⟩
        exact ⟨(each state item).mp ⟨next, here⟩, (ih next).mp later⟩
      · intro all
        rcases (each state item).mpr all.1 with ⟨next, here⟩
        exact ⟨next, here, (ih next).mpr all.2⟩

theorem foldlM_flatMap {step : σ → γ → Except ε σ} (parts : α → List γ) (items : List α)
    (state : σ) :
    (items.flatMap parts).foldlM step state =
      items.foldlM (fun state item => (parts item).foldlM step state) state := by
  induction items generalizing state with
  | nil => rfl
  | cons item rest ih =>
      rw [List.flatMap_cons, List.foldlM_append, List.foldlM_cons]
      exact congrArg (Except.bind _) (funext (fun next => ih next))

theorem foldlM_invariant {step : σ → α → Except ε σ} {holds : σ → Prop}
    (kept : ∀ state item next, item ∈ items → holds state → step state item = .ok next → holds next)
    {state last : σ} (initially : holds state) (ran : items.foldlM step state = .ok last) :
    holds last := by
  induction items generalizing state with
  | nil =>
      cases ran
      exact initially
  | cons item rest ih =>
      rw [List.foldlM_cons] at ran
      rcases of_bind ran with ⟨next, here, later⟩
      refine ih ?_ (kept state item next (.head _) initially here) later
      exact fun state other next mem => kept state other next (.tail _ mem)

end Fallible
