import Mathlib.Data.List.Nodup
import Mathlib.Data.List.Range
import Mathlib.Data.Prod.Lex
import PhysicalHarness.Harness.Executor

namespace PhysicalHarness
namespace Harness
namespace Executor

open Loop

/-!
# Every item is settled once

The parent learns about a child in three ways: its message, the end of its pipe, and its
death.  Because liveness is sampled before the pipe is polled, a child is only written off as
dead after everything it ever sent could be read.  The invariant of the loop accounts for every
item: it is still queued, its process is live, or it is settled, and a settled process is dead
from then on, so that only live processes run.
-/

variable {Item Result Error : Type}

/-- What is known of a child when it is settled: it sent the payload, it never sent anything
and has closed its pipe or died, or it was killed. -/
def Grounds (schedule : Schedule Result Error) (killed : List (Nat × ℚ)) (proc : Proc Item) :
    Verdict Result → Prop
  | .payload result => ∃ time, (schedule.life proc.pid).sent = some (time, .ok result)
  | .lost .workerDied => (schedule.life proc.pid).sent = none ∧
      ((schedule.life proc.pid).closed.isSome ∨ (schedule.life proc.pid).died.isSome)
  | .lost .wallTimeout => proc.pid ∈ killed.map Prod.fst

variable {schedule : Schedule Result Error}

theorem Grounds.more {killed more : List (Nat × ℚ)} {proc : Proc Item} {verdict : Verdict Result}
    (grounds : Grounds schedule killed proc verdict)
    (kept : ∀ kill ∈ killed, kill ∈ more) : Grounds schedule more proc verdict := by
  cases verdict with
  | payload result => exact grounds
  | lost reason =>
      cases reason with
      | workerDied => exact grounds
      | wallTimeout =>
          rcases List.mem_map.mp grounds with ⟨kill, mem, same⟩
          exact List.mem_map.mpr ⟨kill, kept kill mem, same⟩

section Observation

variable {proc : Proc Item} {time later : ℚ}

theorem sent_of_heard {message : Message Result Error}
    (heard : schedule.heard proc time = some message) :
    ∃ at_, (schedule.life proc.pid).sent = some (at_, message) := by
  rcases Option.map_eq_some_iff.mp heard with ⟨pair, kept, same⟩
  exact ⟨pair.1, by rw [(Option.filter_eq_some_iff.mp kept).1, ← same]⟩

theorem sent_eq_none_of_heard_none
    (silent : schedule.heard proc time = none)
    (late : ∀ message, (schedule.life proc.pid).sent = some message →
      proc.born + message.1 ≤ time) : (schedule.life proc.pid).sent = none := by
  cases sent : (schedule.life proc.pid).sent with
  | none => rfl
  | some message =>
      have arrived := late message sent
      simp only [Schedule.heard, sent, Option.map_eq_none_iff, Option.filter_eq_none_iff,
        Option.some.injEq, forall_eq', decide_eq_true_eq] at silent
      exact absurd arrived silent

theorem heard_mono {message : Message Result Error}
    (heard : schedule.heard proc time = some message) (before : time ≤ later) :
    schedule.heard proc later = some message := by
  rcases Option.map_eq_some_iff.mp heard with ⟨pair, kept, same⟩
  rcases Option.filter_eq_some_iff.mp kept with ⟨sent, arrived⟩
  have reached := (of_decide_eq_true arrived).trans before
  exact Option.map_eq_some_iff.mpr
    ⟨pair, Option.filter_eq_some_iff.mpr ⟨sent, decide_eq_true reached⟩, same⟩

theorem exists_closed (closed : schedule.closedBy proc time = true) :
    ∃ closed', (schedule.life proc.pid).closed = some closed' ∧ proc.born + closed' ≤ time := by
  simpa [Schedule.closedBy, Option.any_eq_true] using closed

theorem exists_died (died : schedule.diedBy proc time = true) :
    ∃ died', (schedule.life proc.pid).died = some died' ∧ proc.born + died' ≤ time := by
  simpa [Schedule.diedBy, Option.any_eq_true] using died

theorem diedBy_mono (died : schedule.diedBy proc time = true) (before : time ≤ later) :
    schedule.diedBy proc later = true := by
  rcases exists_died died with ⟨died', found, reached⟩
  simp [Schedule.diedBy, found, reached.trans before]

end Observation

/-- Time went on and processes may have been killed; the rest of the variables are untouched. -/
structure Later (before after : Parent Item Result) : Prop where
  now : before.now ≤ after.now
  queue : after.queue = before.queue
  exhausted : after.exhausted = before.exhausted
  procs : after.procs = before.procs
  live : after.live = before.live
  out : after.out = before.out
  kept : ∀ kill ∈ before.killed, kill ∈ after.killed
  fresh : ∀ kill ∈ after.killed, kill ∈ before.killed ∨ kill.2 ≤ after.now

theorem Later.refl (parent : Parent Item Result) : Later parent parent :=
  ⟨le_refl _, rfl, rfl, rfl, rfl, rfl, fun _ mem => mem, fun _ mem => Or.inl mem⟩

theorem Later.trans {first second third : Parent Item Result} (one : Later first second)
    (two : Later second third) : Later first third where
  now := one.now.trans two.now
  queue := two.queue.trans one.queue
  exhausted := two.exhausted.trans one.exhausted
  procs := two.procs.trans one.procs
  live := two.live.trans one.live
  out := two.out.trans one.out
  kept := fun kill mem => two.kept kill (one.kept kill mem)
  fresh := by
    intro kill mem
    rcases two.fresh kill mem with old | new
    · rcases one.fresh kill old with older | recent
      · exact Or.inl older
      · exact Or.inr (recent.trans two.now)
    · exact Or.inr new

theorem later_act (schedule : Schedule Result Error) (parent : Parent Item Result) :
    Later parent (parent.act schedule) where
  now := le_add_of_nonneg_right (schedule.delay_nonneg _)
  queue := rfl
  exhausted := rfl
  procs := rfl
  live := rfl
  out := rfl
  kept := fun _ mem => mem
  fresh := fun _ mem => Or.inl mem

theorem later_kill (parent : Parent Item Result) (proc : Proc Item) :
    Later parent (parent.kill proc) where
  now := le_refl _
  queue := rfl
  exhausted := rfl
  procs := rfl
  live := rfl
  out := rfl
  kept := fun _ mem => List.mem_append_left _ mem
  fresh := by
    intro kill mem
    rcases List.mem_append.mp mem with old | new
    · exact Or.inl old
    · exact Or.inr (List.mem_singleton.mp new ▸ le_refl _)

theorem later_sleep (parent : Parent Item Result) : Later parent (parent.sleep schedule) where
  now := (later_act schedule parent).now.trans (le_add_of_nonneg_right (by norm_num [tick]))
  queue := rfl
  exhausted := rfl
  procs := rfl
  live := rfl
  out := rfl
  kept := fun _ mem => mem
  fresh := fun _ mem => Or.inl mem

def Tells (schedule : Schedule Result Error) (timeout : ℚ) (proc : Proc Item)
    (after : Parent Item Result) : Check Result Error → Prop
  | .waiting => after.now - proc.started ≤ timeout
  | .settled verdict => Grounds schedule after.killed proc verdict
  | .raised error => ∃ time, (schedule.life proc.pid).sent = some (time, .err error)

theorem check_spec (timeout : ℚ) (proc : Proc Item) (parent : Parent Item Result) :
    Later parent (check schedule timeout proc parent).1 ∧
      Tells schedule timeout proc (check schedule timeout proc parent).1
        (check schedule timeout proc parent).2 := by
  have first := later_act schedule parent
  have second := first.trans (later_act schedule _)
  have third := second.trans (later_act schedule _)
  unfold check
  dsimp only
  cases ready : schedule.polls proc (((parent.act schedule).act schedule)).now with
  | true =>
      simp only [if_true]
      have later : ((parent.act schedule).act schedule).now ≤
          (((parent.act schedule).act schedule).act schedule).now := (later_act schedule _).now
      cases heard : schedule.heard proc (((parent.act schedule).act schedule).act schedule).now with
      | some message =>
          cases message with
          | ok payload => exact ⟨third, sent_of_heard heard⟩
          | err error => exact ⟨third, sent_of_heard heard⟩
      | none =>
          refine ⟨third, ?_⟩
          -- nothing to read although the poll was answered: the pipe is at its end
          have ended : schedule.closedBy proc ((parent.act schedule).act schedule).now = true := by
            rw [Schedule.polls, Bool.or_eq_true, Option.isSome_iff_exists] at ready
            rcases ready with ⟨message, found⟩ | closed
            · rw [heard_mono found later] at heard
              cases heard
            · exact closed
          rcases exists_closed ended with ⟨closed, found, reached⟩
          refine ⟨sent_eq_none_of_heard_none heard ?_, Or.inl (by rw [found]; rfl)⟩
          intro message sent
          have early := Life.sent_le_closed sent found
          linarith
  | false =>
      simp only [Bool.false_eq_true, if_false]
      cases dead : schedule.diedBy proc (parent.act schedule).now with
      | true =>
          simp only [if_true]
          refine ⟨second, ?_⟩
          have silent : schedule.heard proc ((parent.act schedule).act schedule).now = none := by
            rw [Schedule.polls, Bool.or_eq_false_iff] at ready
            simpa using ready.1
          rcases exists_died dead with ⟨died, found, reached⟩
          refine ⟨sent_eq_none_of_heard_none silent ?_, Or.inr (by rw [found]; rfl)⟩
          intro message sent
          -- it died before the sample, so its message was there before the poll
          have early := Life.sent_le_died sent found
          have sampled : (parent.act schedule).now ≤ ((parent.act schedule).act schedule).now :=
            (later_act schedule _).now
          linarith
      | false =>
          simp only [Bool.false_eq_true, if_false]
          by_cases late : timeout <
              (((parent.act schedule).act schedule).act schedule).now - proc.started
          · rw [if_pos late]
            refine ⟨(third.trans (later_act schedule _)).trans (later_kill _ _), ?_⟩
            simp [Tells, Grounds, Parent.kill]
          · rw [if_neg late]
            exact ⟨third, not_lt.mp late⟩

/-- A sweep that meets no error settles some of the processes, in their order, each on its
grounds; the others are within their time. -/
theorem sweep_ok {timeout : ℚ} {procs : List (Proc Item)} {parent after : Parent Item Result}
    {settled all : List (Proc Item × Verdict Result)}
    (swept : sweep schedule timeout procs parent settled = (after, .ok all)) :
    Later parent after ∧ ∃ fresh, all = settled ++ fresh ∧
      (fresh.map Prod.fst).Sublist procs ∧
      (∀ entry ∈ fresh, Grounds schedule after.killed entry.1 entry.2) ∧
      ∀ proc ∈ procs, proc ∈ fresh.map Prod.fst ∨ parent.now - proc.started ≤ timeout := by
  induction procs generalizing parent settled with
  | nil =>
      cases swept
      exact ⟨Later.refl _, [], (List.append_nil _).symm, List.Sublist.refl _,
        List.forall_mem_nil _,
        List.forall_mem_nil _⟩
  | cons proc rest ih =>
      rcases @check_spec _ _ _ schedule timeout proc parent with ⟨moved, tells⟩
      rw [sweep] at swept
      generalize checked : check schedule timeout proc parent = result at swept moved tells
      rcases result with ⟨next, found⟩
      cases found with
      | waiting =>
          rcases ih swept with ⟨later, fresh, split, part, grounds, within⟩
          refine ⟨moved.trans later, fresh, split, part.cons proc, grounds, ?_⟩
          intro other mem
          rcases List.mem_cons.mp mem with same | old
          · subst same
            exact Or.inr ((sub_le_sub_right moved.now _).trans tells)
          · rcases within other old with here | waits
            · exact Or.inl here
            · exact Or.inr ((sub_le_sub_right moved.now _).trans waits)
      | settled verdict =>
          rcases ih swept with ⟨later, fresh, split, part, grounds, within⟩
          refine ⟨moved.trans later, (proc, verdict) :: fresh, ?_, part.cons_cons proc, ?_, ?_⟩
          · rw [split, List.append_assoc]
            rfl
          · intro entry mem
            rcases List.mem_cons.mp mem with same | old
            · subst same
              exact Grounds.more tells later.kept
            · exact grounds entry old
          · intro other mem
            rcases List.mem_cons.mp mem with same | old
            · subst same
              exact Or.inl (.head _)
            · rcases within other old with here | waits
              · exact Or.inl (.tail _ here)
              · exact Or.inr ((sub_le_sub_right moved.now _).trans waits)
      | raised error => cases swept

theorem sweep_error {timeout : ℚ} {procs : List (Proc Item)} {parent after : Parent Item Result}
    {settled : List (Proc Item × Verdict Result)} {error : Error}
    (swept : sweep schedule timeout procs parent settled = (after, .error error)) :
    Later parent after ∧ ∃ proc ∈ procs, ∃ time,
      (schedule.life proc.pid).sent = some (time, .err error) := by
  induction procs generalizing parent settled with
  | nil => cases swept
  | cons proc rest ih =>
      rcases @check_spec _ _ _ schedule timeout proc parent with ⟨moved, tells⟩
      rw [sweep] at swept
      generalize checked : check schedule timeout proc parent = result at swept moved tells
      rcases result with ⟨next, found⟩
      cases found with
      | raised other =>
          cases swept
          exact ⟨moved, proc, .head _, tells⟩
      | waiting =>
          rcases ih swept with ⟨later, other, mem, sent⟩
          exact ⟨moved.trans later, other, .tail _ mem, sent⟩
      | settled verdict =>
          rcases ih swept with ⟨later, other, mem, sent⟩
          exact ⟨moved.trans later, other, .tail _ mem, sent⟩

/-! ## The account of the items -/

def Gone (schedule : Schedule Result Error) (killed : List (Nat × ℚ)) (time : ℚ)
    (proc : Proc Item) : Prop :=
  ∀ later, time ≤ later → schedule.alive killed later proc = false

/-- Every item is queued, live or settled; settled processes are gone, and there was never
more than one process for each worker. -/
structure Sound (schedule : Schedule Result Error) (items : List Item) (workers : Nat)
    (parent : Parent Item Result) : Prop where
  pids : parent.procs.map Proc.pid = List.range parent.procs.length
  items : parent.procs.map Proc.item ++ parent.queue = items
  account : (parent.out.map Prod.fst ++ parent.live).Perm parent.procs
  room : parent.live.length ≤ workers
  kills : ∀ kill ∈ parent.killed, kill.2 ≤ parent.now
  gone : ∀ entry ∈ parent.out, Gone schedule parent.killed parent.now entry.1
  bounded : ∀ time, (parent.procs.filter (schedule.alive parent.killed time)).length ≤ workers
  grounds : ∀ entry ∈ parent.out, Grounds schedule parent.killed entry.1 entry.2
  drained : parent.exhausted = true → parent.queue = []

theorem alive_of_more {killed more : List (Nat × ℚ)} {time : ℚ} {proc : Proc Item}
    (kept : ∀ kill ∈ killed, kill ∈ more) (alive : schedule.alive more time proc = true) :
    schedule.alive killed time proc = true := by
  simp only [Schedule.alive, Bool.and_eq_true, List.all_eq_true] at alive ⊢
  exact ⟨alive.1, fun kill mem => alive.2 kill (kept kill mem)⟩

theorem Gone.later {killed more : List (Nat × ℚ)} {time later : ℚ} {proc : Proc Item}
    (gone : Gone schedule killed time proc) (before : time ≤ later)
    (kept : ∀ kill ∈ killed, kill ∈ more) : Gone schedule more later proc := by
  intro moment after
  have dead := gone moment (before.trans after)
  by_contra runs
  rw [Bool.not_eq_false] at runs
  rw [alive_of_more kept runs] at dead
  cases dead

namespace Sound

variable {items : List Item} {workers : Nat} {parent after : Parent Item Result}

theorem later (sound : Sound schedule items workers parent) (moved : Later parent after) :
    Sound schedule items workers after where
  pids := by rw [moved.procs]; exact sound.pids
  items := by rw [moved.procs, moved.queue]; exact sound.items
  account := by rw [moved.out, moved.live, moved.procs]; exact sound.account
  room := by rw [moved.live]; exact sound.room
  kills := by
    intro kill mem
    rcases moved.fresh kill mem with old | new
    · exact (sound.kills kill old).trans moved.now
    · exact new
  gone := by
    rw [moved.out]
    exact fun entry mem => (sound.gone entry mem).later moved.now moved.kept
  bounded := by
    intro time
    rw [moved.procs]
    have fewer := List.monotone_filter_right parent.procs
      (fun proc alive => @alive_of_more _ _ _ schedule _ _ time proc moved.kept alive)
    exact fewer.length_le.trans (sound.bounded time)
  grounds := by
    rw [moved.out]
    exact fun entry mem => (sound.grounds entry mem).more moved.kept
  drained := by
    rw [moved.exhausted, moved.queue]
    exact sound.drained

theorem live_of_alive (sound : Sound schedule items workers parent) {time : ℚ}
    (later : parent.now ≤ time) {proc : Proc Item} (mem : proc ∈ parent.procs)
    (alive : schedule.alive parent.killed time proc = true) : proc ∈ parent.live := by
  rcases List.mem_append.mp (sound.account.mem_iff.mpr mem) with settled | live
  · rcases List.mem_map.mp settled with ⟨entry, held, same⟩
    have dead := sound.gone entry held time later
    rw [same, alive] at dead
    cases dead
  · exact live

theorem procs_nodup (sound : Sound schedule items workers parent) : parent.procs.Nodup := by
  apply List.Nodup.of_map Proc.pid
  rw [sound.pids]
  exact List.nodup_range

theorem live_subset (sound : Sound schedule items workers parent) {proc : Proc Item}
    (mem : proc ∈ parent.live) : proc ∈ parent.procs :=
  sound.account.mem_iff.mp (List.mem_append_right _ mem)

theorem item_of_proc (sound : Sound schedule items workers parent) {proc : Proc Item}
    (mem : proc ∈ parent.procs) :
    proc.pid < items.length ∧ (parent.queue = [] → items[proc.pid]? = some proc.item) := by
  rcases List.mem_iff_getElem?.mp mem with ⟨index, found⟩
  have bound : index < parent.procs.length := (List.getElem?_eq_some_iff.mp found).1
  have pid : proc.pid = index := by
    have named : (parent.procs.map Proc.pid)[index]? = some proc.pid := by
      rw [List.getElem?_map, found]
      rfl
    rw [sound.pids, List.getElem?_range bound] at named
    exact (Option.some.inj named).symm
  have whole := sound.items
  constructor
  · rw [← whole, List.length_append, List.length_map, pid]
    omega
  · intro drained
    rw [drained, List.append_nil] at whole
    rw [← whole, pid, List.getElem?_map, found]
    rfl

theorem live_nodup (sound : Sound schedule items workers parent) : parent.live.Nodup :=
  (List.nodup_append.mp (sound.account.nodup_iff.mpr sound.procs_nodup)).2.1

theorem eq_of_pid (sound : Sound schedule items workers parent) {first second : Proc Item}
    (one : first ∈ parent.procs) (two : second ∈ parent.procs) (same : first.pid = second.pid) :
    first = second := by
  have distinct : (parent.procs.map Proc.pid).Nodup := by
    rw [sound.pids]
    exact List.nodup_range
  exact List.inj_on_of_nodup_map distinct one two same

theorem length_alive_le (sound : Sound schedule items workers parent) {time : ℚ}
    (later : parent.now ≤ time) :
    (parent.procs.filter (schedule.alive parent.killed time)).length ≤ parent.live.length := by
  refine (List.subperm_of_subset (sound.procs_nodup.filter _) ?_).length_le
  intro proc mem
  rcases List.mem_filter.mp mem with ⟨started, alive⟩
  exact sound.live_of_alive later started alive

theorem start (sound : Sound schedule items workers parent) {item : Item} {rest : List Item}
    (next : parent.queue = item :: rest) (free : parent.live.length < workers) :
    Sound schedule items workers (Parent.start schedule { parent with queue := rest } item) := by
  have born : parent.now ≤ (parent.act schedule).now := (later_act schedule parent).now
  have opened : parent.now ≤ ((parent.act schedule).act schedule).now :=
    born.trans (later_act schedule _).now
  constructor
  · change (parent.procs ++ [_]).map Proc.pid = List.range (parent.procs ++ [_]).length
    rw [List.map_append, sound.pids, List.length_append, List.length_singleton, List.range_succ]
    rfl
  · have whole := sound.items
    rw [next] at whole
    change (parent.procs ++ [_]).map Proc.item ++ rest = items
    rw [List.map_append, List.append_assoc]
    exact whole
  · change (parent.out.map Prod.fst ++ (parent.live ++ [_])).Perm (parent.procs ++ [_])
    rw [← List.append_assoc]
    exact sound.account.append_right _
  · change (parent.live ++ [_]).length ≤ workers
    rw [List.length_append]
    exact free
  · intro kill mem
    exact (sound.kills kill mem).trans opened
  · intro entry mem
    exact (sound.gone entry mem).later opened (fun _ held => held)
  · intro time
    change ((parent.procs ++ [_]).filter (schedule.alive parent.killed time)).length ≤ workers
    rw [List.filter_append, List.length_append]
    by_cases early : time < (parent.act schedule).now
    · -- the new process does not run before it is forked
      have asleep : [(⟨parent.procs.length, item, (parent.act schedule).now,
          ((parent.act schedule).act schedule).now⟩ : Proc Item)].filter
            (schedule.alive parent.killed time) = [] := by
        rw [List.filter_eq_nil_iff]
        intro proc mem
        cases List.mem_singleton.mp mem
        simp [Schedule.alive, early]
      have before := sound.bounded time
      change _ + ([(⟨parent.procs.length, item, (parent.act schedule).now,
        ((parent.act schedule).act schedule).now⟩ : Proc Item)].filter _).length ≤ workers
      rw [asleep]
      exact before
    · have others := sound.length_alive_le (born.trans (not_lt.mp early))
      have one := List.length_filter_le (schedule.alive parent.killed time)
        [(⟨parent.procs.length, item, (parent.act schedule).now,
          ((parent.act schedule).act schedule).now⟩ : Proc Item)]
      rw [List.length_singleton] at one
      exact (Nat.add_le_add others one).trans free
  · intro entry mem
    exact sound.grounds entry mem
  · intro exhausted
    have empty := sound.drained exhausted
    rw [next] at empty
    cases empty

theorem fill (sound : Sound schedule items workers parent) {queue : List Item}
    (same : parent.queue = queue) :
    Sound schedule items workers (Executor.fill schedule workers queue parent) := by
  induction queue generalizing parent with
  | nil =>
      rw [Executor.fill]
      by_cases free : parent.live.length < workers
      · rw [if_pos free]
        exact { sound with drained := fun _ => same }
      · rw [if_neg free]
        exact sound
  | cons item rest ih =>
      rw [Executor.fill]
      by_cases free : parent.live.length < workers
      · rw [if_pos free]
        exact ih (sound.start same free) rfl
      · rw [if_neg free]
        exact sound

end Sound

section Retiring

variable {items : List Item} {workers : Nat} {parent : Parent Item Result} {proc : Proc Item}

theorem gone_of_killed (kills : ∀ kill ∈ parent.killed, kill.2 ≤ parent.now)
    (killed : proc.pid ∈ parent.killed.map Prod.fst) :
    Gone schedule parent.killed parent.now proc := by
  rcases List.mem_map.mp killed with ⟨kill, mem, same⟩
  intro later after
  have late := (kills kill mem).trans after
  by_contra runs
  rw [Bool.not_eq_false, Schedule.alive, Bool.and_eq_true, List.all_eq_true] at runs
  have spared := runs.2 kill mem
  simp only [same, ne_eq, not_true_eq_false, decide_false, Bool.false_or, decide_eq_true_eq]
    at spared
  exact absurd late (not_le.mpr spared)

theorem gone_of_died {killed : List (Nat × ℚ)} {time : ℚ}
    (died : schedule.diedBy proc time = true) : Gone schedule killed time proc := by
  intro later after
  simp [Schedule.alive, diedBy_mono died after]

theorem join_spec {joined : Parent Item Result}
    (kills : ∀ kill ∈ parent.killed, kill.2 ≤ parent.now)
    (done : join schedule proc parent = some joined) :
    Later parent joined ∧ Gone schedule joined.killed joined.now proc := by
  have called := later_act schedule parent
  unfold join at done
  dsimp only at done
  by_cases killed : proc.pid ∈ (parent.act schedule).killed.map Prod.fst
  · rw [if_pos killed] at done
    cases done
    exact ⟨called, gone_of_killed (fun kill mem => (kills kill mem).trans called.now) killed⟩
  · rw [if_neg killed] at done
    rcases Option.map_eq_some_iff.mp done with ⟨died, found, same⟩
    subst same
    refine ⟨{ called with
      now := called.now.trans (le_max_left _ _)
      fresh := fun kill mem => Or.inl mem }, ?_⟩
    apply gone_of_died
    simp [Schedule.diedBy, found]

theorem join_returns {verdict : Verdict Result} (departs : (schedule.life proc.pid).Departs)
    (grounds : Grounds schedule parent.killed proc verdict) :
    ∃ joined, join schedule proc parent = some joined := by
  unfold join
  dsimp only
  by_cases killed : proc.pid ∈ (parent.act schedule).killed.map Prod.fst
  · exact ⟨_, if_pos killed⟩
  · rw [if_neg killed]
    have died : (schedule.life proc.pid).died.isSome := by
      cases verdict with
      | payload result =>
          rcases grounds with ⟨time, sent⟩
          exact departs (Or.inl (by rw [sent]; rfl))
      | lost reason =>
          cases reason with
          | wallTimeout => exact absurd grounds killed
          | workerDied =>
              rcases grounds.2 with closed | died
              · exact departs (Or.inr closed)
              · exact died
    rcases Option.isSome_iff_exists.mp died with ⟨died, found⟩
    exact ⟨_, by rw [found]; rfl⟩

theorem join_pop (proc : Proc Item) (parent : Parent Item Result) :
    join schedule proc (parent.pop proc) =
      (join schedule proc parent).map (fun joined => joined.pop proc) := by
  unfold join
  dsimp only
  by_cases killed : proc.pid ∈ (parent.act schedule).killed.map Prod.fst
  · rw [if_pos killed, if_pos (show proc.pid ∈
      ((parent.pop proc).act schedule).killed.map Prod.fst from killed)]
    rfl
  · rw [if_neg killed, if_neg (show proc.pid ∉
      ((parent.pop proc).act schedule).killed.map Prod.fst from killed), Option.map_map]
    rfl

theorem mem_pop_live (sound : Sound schedule items workers parent) (mem : proc ∈ parent.live)
    {other : Proc Item} :
    other ∈ (parent.pop proc).live ↔ other ∈ parent.live ∧ other ≠ proc := by
  rw [Parent.pop, List.mem_filter, decide_eq_true_eq]
  refine and_congr_right fun held => not_congr ⟨fun same => ?_, fun same => by rw [same]⟩
  exact sound.eq_of_pid (sound.live_subset held) (sound.live_subset mem) same

theorem pop_perm (sound : Sound schedule items workers parent) (mem : proc ∈ parent.live) :
    (proc :: (parent.pop proc).live).Perm parent.live := by
  have nodup : (proc :: (parent.pop proc).live).Nodup := by
    refine List.nodup_cons.mpr ⟨fun held => ?_, sound.live_nodup.filter _⟩
    exact ((mem_pop_live sound mem).mp held).2 rfl
  rw [List.perm_ext_iff_of_nodup nodup sound.live_nodup]
  intro other
  rw [List.mem_cons, mem_pop_live sound mem]
  by_cases same : other = proc
  · simp [same, mem]
  · simp [same]

theorem Sound.settle (sound : Sound schedule items workers parent) (mem : proc ∈ parent.live)
    {verdict : Verdict Result} (gone : Gone schedule parent.killed parent.now proc)
    (grounds : Grounds schedule parent.killed proc verdict) :
    Sound schedule items workers ((parent.pop proc).settle proc verdict) where
  pids := sound.pids
  items := sound.items
  account := by
    change ((parent.out ++ [(proc, verdict)]).map Prod.fst ++ (parent.pop proc).live).Perm
      parent.procs
    rw [List.map_append, List.append_assoc]
    exact ((pop_perm sound mem).append_left _).trans sound.account
  room := (List.length_filter_le _ _).trans sound.room
  kills := sound.kills
  gone := by
    intro entry held
    rcases List.mem_append.mp held with old | new
    · exact sound.gone entry old
    · cases List.mem_singleton.mp new
      exact gone
  bounded := sound.bounded
  grounds := by
    intro entry held
    rcases List.mem_append.mp held with old | new
    · exact sound.grounds entry old
    · cases List.mem_singleton.mp new
      exact grounds
  drained := sound.drained

theorem retire_spec (departs : ∀ pid < items.length, (schedule.life pid).Departs)
    {settled : List (Proc Item × Verdict Result)} (sound : Sound schedule items workers parent)
    (inside : ∀ entry ∈ settled, entry.1 ∈ parent.live)
    (distinct : (settled.map Prod.fst).Nodup)
    (grounds : ∀ entry ∈ settled, Grounds schedule parent.killed entry.1 entry.2) :
    ∃ after, retire schedule settled parent = some after ∧
      Sound schedule items workers after ∧ after.queue = parent.queue ∧
      after.exhausted = parent.exhausted ∧
      after.live.length + settled.length = parent.live.length := by
  induction settled generalizing parent with
  | nil => exact ⟨parent, rfl, sound, rfl, rfl, rfl⟩
  | cons entry rest ih =>
      rcases entry with ⟨proc, verdict⟩
      rw [List.map_cons, List.nodup_cons] at distinct
      have mem := inside _ (.head _)
      have ground := grounds _ (.head _)
      have started := (sound.item_of_proc (sound.live_subset mem)).1
      rcases join_returns (departs proc.pid started) ground with ⟨joined, done⟩
      rcases join_spec sound.kills done with ⟨moved, gone⟩
      have held : proc ∈ joined.live := moved.live ▸ mem
      have next := (sound.later moved).settle held gone (ground.more moved.kept)
      have remaining : ∀ other ∈ rest, other.1 ∈ ((joined.pop proc).settle proc verdict).live := by
        intro other otherMember
        refine (mem_pop_live (sound.later moved) held).mpr ⟨?_, fun same => ?_⟩
        · rw [moved.live]
          exact inside other (.tail _ otherMember)
        · exact distinct.1 (List.mem_map.mpr ⟨other, otherMember, same⟩)
      rcases ih next remaining distinct.2 (fun other otherMember =>
        (grounds other (.tail _ otherMember)).more moved.kept) with
        ⟨after, retired, last, queue, exhausted, count⟩
      refine ⟨after, ?_, last, queue.trans moved.queue, exhausted.trans moved.exhausted, ?_⟩
      · rw [retire, join_pop, done]
        exact retired
      · have freed := (pop_perm (sound.later moved) held).length_eq
        rw [List.length_cons, moved.live] at freed
        have left : after.live.length + rest.length = (joined.pop proc).live.length := count
        rw [List.length_cons]
        omega

theorem cleanup_spec (procs : List (Proc Item)) {parent : Parent Item Result}
    (kills : ∀ kill ∈ parent.killed, kill.2 ≤ parent.now) :
    Later parent (cleanup schedule procs parent) ∧ ∀ proc ∈ procs,
      proc.pid ∈ (cleanup schedule procs parent).killed.map Prod.fst ∧
        Gone schedule (cleanup schedule procs parent).killed (cleanup schedule procs parent).now
          proc := by
  induction procs generalizing parent with
  | nil => exact ⟨Later.refl _, List.forall_mem_nil _⟩
  | cons proc rest ih =>
      have moved := ((later_act schedule parent).trans (later_kill _ proc)).trans
        (later_act schedule _)
      have timely : ∀ kill ∈ ((((parent.act schedule).kill proc).act schedule)).killed,
          kill.2 ≤ ((((parent.act schedule).kill proc).act schedule)).now := by
        intro kill mem
        rcases moved.fresh kill mem with old | new
        · exact (kills kill old).trans moved.now
        · exact new
      rcases ih timely with ⟨later, each⟩
      refine ⟨moved.trans later, fun other mem => ?_⟩
      rcases List.mem_cons.mp mem with same | old
      · subst same
        have killed : other.pid ∈
            ((((parent.act schedule).kill other).act schedule)).killed.map Prod.fst := by
          simp [Parent.kill, Parent.act]
        refine ⟨?_, (gone_of_killed timely killed).later later.now later.kept⟩
        rcases List.mem_map.mp killed with ⟨kill, held, same⟩
        exact List.mem_map.mpr ⟨kill, later.kept kill held, same⟩
      · exact each other old

end Retiring

/-- What an item is settled with is the child's own payload or an honest loss. -/
def Honest (life : Life Result Error) : Verdict Result → Prop
  | .payload result => ∃ time, life.sent = some (time, .ok result)
  | .lost .workerDied => life.sent = none
  | .lost .wallTimeout => True

/-- The rows are those of the items, one each, in the order in which they were settled. -/
def OneEach (schedule : Schedule Result Error) (onLost : Item → Reason → Result)
    (items : List Item) (rows : List Result) : Prop :=
  ∃ settled : List (Nat × Verdict Result),
    (settled.map Prod.fst).Perm (List.range items.length) ∧
    List.Forall₂ (fun entry row => ∃ item, items[entry.1]? = some item ∧
      row = rowOf onLost item entry.2) settled rows ∧
    ∀ entry ∈ settled, Honest (schedule.life entry.1) entry.2

/-- At no time are there more running children than workers. -/
def Bounded (schedule : Schedule Result Error) (workers : Nat) (parent : Parent Item Result) :
    Prop :=
  ∀ time, (parent.procs.filter (schedule.alive parent.killed time)).length ≤ workers

/-- Every item is settled once, or the error of a child is raised again with every live child
killed. -/
def Settles (schedule : Schedule Result Error) (workers : Nat)
    (onLost : Item → Reason → Result) (items : List Item) : Ending Item Result Error → Prop
  | .refused => False
  | .returned rows parent => OneEach schedule onLost items rows ∧ Bounded schedule workers parent ∧
      ∀ proc ∈ parent.procs, Gone schedule parent.killed parent.now proc
  | .raised error parent => (∃ pid time, pid < items.length ∧
        (schedule.life pid).sent = some (time, .err error)) ∧
      (∀ proc ∈ parent.live, proc.pid ∈ parent.killed.map Prod.fst) ∧
      Bounded schedule workers parent ∧
      ∀ proc ∈ parent.procs, Gone schedule parent.killed parent.now proc
  | .stuck => False

theorem Grounds.honest {killed : List (Nat × ℚ)} {proc : Proc Item} {verdict : Verdict Result}
    (grounds : Grounds schedule killed proc verdict) :
    Honest (schedule.life proc.pid) verdict := by
  cases verdict with
  | payload result => exact grounds
  | lost reason =>
      cases reason with
      | workerDied => exact grounds.1
      | wallTimeout => trivial

section Run

variable {items : List Item} {workers : Nat} {timeout : ℚ} {onLost : Item → Reason → Result}
  {parent after : Parent Item Result}

theorem Sound.initial (schedule : Schedule Result Error) (items : List Item) (workers : Nat) :
    Sound schedule items workers ({ queue := items } : Parent Item Result) where
  pids := rfl
  items := rfl
  account := List.Perm.refl _
  room := Nat.zero_le _
  kills := List.forall_mem_nil _
  gone := List.forall_mem_nil _
  bounded := fun _ => Nat.zero_le _
  grounds := List.forall_mem_nil _
  drained := nofun

theorem Sound.oneEach (sound : Sound schedule items workers parent)
    (exhausted : parent.exhausted = true) (empty : parent.live = []) :
    OneEach schedule onLost items
      (parent.out.map (fun entry => rowOf onLost entry.1.item entry.2)) := by
  have drained := sound.drained exhausted
  have count : parent.procs.length = items.length := by
    have whole := sound.items
    rw [drained, List.append_nil] at whole
    rw [← whole, List.length_map]
  have account := sound.account
  rw [empty, List.append_nil] at account
  refine ⟨parent.out.map (fun entry => (entry.1.pid, entry.2)), ?_, ?_, ?_⟩
  · have pids := account.map Proc.pid
    rw [sound.pids, count, List.map_map] at pids
    rw [List.map_map]
    exact pids
  · rw [List.forall₂_map_left_iff, List.forall₂_map_right_iff, List.forall₂_same]
    intro entry mem
    have started := account.mem_iff.mp (List.mem_map_of_mem mem)
    exact ⟨entry.1.item, (sound.item_of_proc started).2 drained, rfl⟩
  · intro entry mem
    rcases List.mem_map.mp mem with ⟨source, held, same⟩
    subst same
    exact (sound.grounds source held).honest

theorem Sound.all_gone (sound : Sound schedule items workers parent)
    (live : ∀ proc ∈ parent.live, Gone schedule parent.killed parent.now proc) :
    ∀ proc ∈ parent.procs, Gone schedule parent.killed parent.now proc := by
  intro proc mem
  rcases List.mem_append.mp (sound.account.mem_iff.mpr mem) with settled | held
  · rcases List.mem_map.mp settled with ⟨entry, out, same⟩
    exact same ▸ sound.gone entry out
  · exact live proc held

theorem turn_stop (departs : ∀ pid < items.length, (schedule.life pid).Departs)
    (sound : Sound schedule items workers parent) {ending : Ending Item Result Error}
    (stopped : turn schedule workers timeout onLost parent = .stop ending) :
    Settles schedule workers onLost items ending := by
  unfold turn at stopped
  by_cases done : parent.exhausted = true ∧ parent.live.isEmpty = true
  · rw [if_pos done] at stopped
    cases stopped
    have empty := List.isEmpty_iff.mp done.2
    refine ⟨sound.oneEach done.1 empty, sound.bounded, sound.all_gone ?_⟩
    rw [empty]
    exact List.forall_mem_nil _
  · rw [if_neg done] at stopped
    have filled := sound.fill rfl
    dsimp only at stopped
    generalize swept : sweep schedule timeout (fill schedule workers parent.queue parent).live
      (fill schedule workers parent.queue parent) [] = result at stopped
    rcases result with ⟨next, found⟩
    cases found with
    | error error =>
        cases stopped
        rcases sweep_error swept with ⟨moved, proc, mem, time, sent⟩
        have last := filled.later moved
        rcases @cleanup_spec _ _ _ schedule next.live _ last.kills with ⟨later, each⟩
        have cleaned := last.later later
        refine ⟨⟨proc.pid, time, ?_, sent⟩, ?_, cleaned.bounded, cleaned.all_gone ?_⟩
        · exact (filled.item_of_proc (filled.live_subset mem)).1
        · intro other held
          exact (each other (later.live ▸ held)).1
        · intro other held
          exact (each other (later.live ▸ held)).2
    | ok settled =>
        rcases sweep_ok swept with ⟨moved, fresh, same, part, grounds, _⟩
        rw [List.nil_append] at same
        subst same
        have last := filled.later moved
        have live : ∀ entry ∈ settled, entry.1 ∈ next.live := fun entry mem =>
          moved.live ▸ part.subset (List.mem_map_of_mem mem)
        rcases retire_spec departs last live (part.nodup filled.live_nodup) grounds with
          ⟨retired, done, _⟩
        simp only [done] at stopped
        cases stopped

def weight (parent : Parent Item Result) : Nat :=
  2 * parent.queue.length + parent.live.length + (!parent.exhausted).toNat

/-- How many ticks the oldest live process may still be waited for. -/
def patience (timeout : ℚ) (parent : Parent Item Result) : Nat :=
  match parent.live with
  | [] => 0
  | proc :: _ => ⌈(proc.started + timeout - parent.now) / tick + 1⌉₊

theorem fill_weight {queue : List Item} (same : parent.queue = queue) :
    fill schedule workers queue parent = parent ∨
      weight (fill schedule workers queue parent) < weight parent := by
  induction queue generalizing parent with
  | nil =>
      rw [fill]
      by_cases free : parent.live.length < workers
      · rw [if_pos free]
        cases exhausted : parent.exhausted with
        | true =>
            refine Or.inl ?_
            rw [← exhausted]
        | false =>
            refine Or.inr ?_
            simp [weight, exhausted]
      · exact Or.inl (if_neg free)
  | cons item rest ih =>
      rw [fill]
      by_cases free : parent.live.length < workers
      · rw [if_pos free]
        have lighter : weight (Parent.start schedule { parent with queue := rest } item) <
            weight parent := by
          have started : weight (Parent.start schedule { parent with queue := rest } item) =
              2 * rest.length + (parent.live.length + 1) + (!parent.exhausted).toNat := by
            simp [weight, Parent.start, Parent.act]
          rw [started, weight, same, List.length_cons]
          omega
        refine Or.inr ?_
        rcases @ih (Parent.start schedule { parent with queue := rest } item) rfl with
          unchanged | less
        · rw [unchanged]
          exact lighter
        · exact less.trans lighter
      · exact Or.inl (if_neg free)

theorem fill_full {queue : List Item} :
    (fill schedule workers queue parent).exhausted = true ∨
      workers ≤ (fill schedule workers queue parent).live.length := by
  induction queue generalizing parent with
  | nil =>
      rw [fill]
      by_cases free : parent.live.length < workers
      · rw [if_pos free]
        exact Or.inl rfl
      · rw [if_neg free]
        exact Or.inr (not_lt.mp free)
  | cons item rest ih =>
      rw [fill]
      by_cases free : parent.live.length < workers
      · rw [if_pos free]
        exact ih
      · rw [if_neg free]
        exact Or.inr (not_lt.mp free)

theorem patience_sleep {slept : Parent Item Result} {proc : Proc Item} {rest : List (Proc Item)}
    (before : parent.live = proc :: rest) (after : slept.live = parent.live)
    (within : parent.now - proc.started ≤ timeout) (passed : parent.now + tick ≤ slept.now) :
    patience timeout slept < patience timeout parent := by
  have positive : (0 : ℚ) < tick := by norm_num [tick]
  have closer : (proc.started + timeout - slept.now) / tick + 1 ≤
      (proc.started + timeout - parent.now) / tick := by
    rw [← le_sub_iff_add_le, ← sub_le_sub_iff_right ((proc.started + timeout - parent.now) / tick)]
    have ratio : (proc.started + timeout - slept.now) / tick -
        (proc.started + timeout - parent.now) / tick = (parent.now - slept.now) / tick := by
      rw [← sub_div]
      congr 1
      ring
    rw [ratio, div_le_iff₀ positive]
    linarith
  have open_ : 0 ≤ (proc.started + timeout - parent.now) / tick :=
    div_nonneg (by linarith) positive.le
  simp only [patience, after, before]
  rw [Nat.lt_ceil]
  rcases le_or_gt 0 ((proc.started + timeout - slept.now) / tick + 1) with left | late
  · exact (Nat.ceil_lt_add_one left).trans_le (by linarith)
  · rw [Nat.ceil_eq_zero.mpr late.le, Nat.cast_zero]
    linarith

/-- A turn that goes on keeps the account, and it settles an item, starts one or brings the
oldest process closer to its timeout. -/
theorem turn_again (workers_pos : 0 < workers)
    (departs : ∀ pid < items.length, (schedule.life pid).Departs)
    (sound : Sound schedule items workers parent)
    (again : turn schedule workers timeout onLost parent = .again after) :
    Sound schedule items workers after ∧
      toLex (weight after, patience timeout after) < toLex (weight parent, patience timeout parent) := by
  unfold turn at again
  by_cases done : parent.exhausted = true ∧ parent.live.isEmpty = true
  · rw [if_pos done] at again
    cases again
  · rw [if_neg done] at again
    have filled := sound.fill (Eq.refl parent.queue)
    dsimp only at again
    generalize same : fill schedule workers parent.queue parent = full at again filled
    generalize swept : sweep schedule timeout full.live full [] = result at again
    rcases result with ⟨next, found⟩
    cases found with
    | error error => cases again
    | ok settled =>
        rcases sweep_ok swept with ⟨moved, fresh, all, part, grounds, within⟩
        rw [List.nil_append] at all
        subst all
        have last := filled.later moved
        have live : ∀ entry ∈ settled, entry.1 ∈ next.live := fun entry mem =>
          moved.live ▸ part.subset (List.mem_map_of_mem mem)
        rcases retire_spec departs last live (part.nodup filled.live_nodup) grounds with
          ⟨retired, ran, kept, queue, exhausted, count⟩
        simp only [ran] at again
        have lighter : weight full ≤ weight parent ∧ (full = parent ∨ weight full < weight parent) := by
          rcases @fill_weight _ _ _ schedule workers parent _ rfl with
            unchanged | less
          · rw [same] at unchanged
            exact ⟨unchanged ▸ le_refl _, Or.inl unchanged⟩
          · rw [same] at less
            exact ⟨less.le, Or.inr less⟩
        cases settled with
        | cons entry rest =>
            cases again
            refine ⟨kept, Prod.Lex.toLex_lt_toLex.mpr (Or.inl ?_)⟩
            have fewer : weight retired < weight full := by
              simp only [weight, queue, exhausted, moved.queue, moved.exhausted]
              rw [moved.live, List.length_cons] at count
              omega
            exact fewer.trans_le lighter.1
        | nil =>
            cases again
            cases ran
            have slept := @later_sleep _ _ _ schedule next
            refine ⟨last.later slept, ?_⟩
            have whole := moved.trans slept
            have equal : weight (next.sleep schedule) = weight full := by
              simp only [weight, whole.queue, whole.live, whole.exhausted]
            rcases lighter.2 with unchanged | less
            · subst unchanged
              refine Prod.Lex.toLex_lt_toLex.mpr (Or.inr ⟨equal, ?_⟩)
              -- nothing was started although the loop goes on, so some process is live
              cases held : full.live with
              | nil =>
                  rcases @fill_full _ _ _ schedule workers full full.queue with ended | taken
                  · rw [same] at ended
                    exact absurd ⟨ended, by rw [held]; rfl⟩ done
                  · rw [same, held] at taken
                    exact absurd workers_pos (not_lt.mpr taken)
              | cons proc rest =>
                  refine patience_sleep held whole.live ?_ ?_
                  · rcases within proc (held ▸ List.mem_cons_self) with never | waits
                    · cases never
                    · exact waits
                  · have ticked : next.now + tick ≤ (next.sleep schedule).now :=
                      add_le_add_left (later_act schedule next).now tick
                    exact (add_le_add_left moved.now tick).trans ticked
            · exact Prod.Lex.toLex_lt_toLex.mpr (Or.inl (equal ▸ less))

end Run

section

variable (schedule : Schedule Result Error) (workers : Nat) (timeout : ℚ)
  (onLost : Item → Reason → Result) (items : List Item)

/-- If every child that has sent its outcome or closed its pipe goes on to exit, a call with a
timeout ends, and however it ends every item is settled once or the error of a child is raised
with every child dead; there are never more children than workers. -/
theorem map_settles (workers_pos : 0 < workers)
    (departs : ∀ pid < items.length, (schedule.life pid).Departs) :
    ∃ fuel ending, map schedule workers timeout (some onLost) items fuel = some ending ∧
      Settles schedule workers onLost items ending := by
  have kept : ∀ state, Reaches (turn schedule workers timeout onLost) { queue := items } state →
      Sound schedule items workers state := fun state reached =>
    reached.invariant (Sound.initial schedule items workers)
      (fun _ _ _ sound again => (turn_again workers_pos departs sound again).1)
  rcases @exists_iterate _ _ _ (· < ·) wellFounded_lt _ _
    (fun parent => toLex (weight parent, patience timeout parent))
    (fun before after reached again =>
      (turn_again workers_pos departs (kept before reached) again).2) with ⟨fuel, ending, ran⟩
  refine ⟨fuel, ending, ran, ?_⟩
  rcases exists_last_of_iterate ran with ⟨last, reached, stopped⟩
  exact turn_stop departs (kept last reached) stopped

end

section Example

/-- The child of each item sends its number at once; the first one then never exits when
`lingers`. -/
private def sampleSchedule (lingers : Bool) : Schedule Nat String where
  life := fun pid =>
    { call := some (0, .returned pid)
      closed := some 0
      died := if lingers then none else some 0
      call_le_closed := by
        intro call held closed ends
        cases held
        cases ends
        exact le_refl _
      call_le_died := by
        intro call held died ends
        cases held
        cases lingers <;> cases ends
        exact le_refl _ }
  delay := fun _ => 1
  delay_nonneg := fun _ => zero_le_one

/-- Two children on one worker: the call settles both items. -/
theorem map_settles_two :
    ∃ fuel ending, map (sampleSchedule false) 1 60 (some fun _ _ => 0) ["a", "b"] fuel =
        some ending ∧
      Settles (sampleSchedule false) 1 (fun _ _ => 0) ["a", "b"] ending :=
  map_settles (sampleSchedule false) 1 60 (fun _ _ => 0) ["a", "b"] Nat.one_pos
    (fun _ _ _ => rfl)

/-- A child that has sent its result and never exits: the parent waits for it in `join` for
ever, whatever the timeout says. -/
theorem map_never_ends :
    map (sampleSchedule true) 1 60 (some fun _ _ => 0) ["a"] 1 = some .stuck ∧
      ∀ fuel ending, map (sampleSchedule true) 1 60 (some fun _ _ => 0) ["a"] fuel = some ending →
        ¬ Settles (sampleSchedule true) 1 (fun _ _ => 0) ["a"] ending := by
  have stuck : map (sampleSchedule true) 1 60 (some fun _ _ => 0) ["a"] 1 = some .stuck := by
    have message : ∀ proc : Proc String, proc.pid = 0 → ∀ time, proc.born ≤ time →
        (sampleSchedule true).heard proc time = some (.ok 0) := by
      intro proc first time later
      simp [Schedule.heard, Life.sent, child, sampleSchedule, first, later]
    have delay : ∀ act, (sampleSchedule true).delay act = 1 := fun _ => rfl
    have undead : ((sampleSchedule true).life 0).died = none := rfl
    norm_num [map, iterate, turn, fill, Parent.start, Parent.act, sweep, check, Schedule.polls,
      message, retire, join, Parent.pop, delay, undead]
  refine ⟨stuck, fun fuel ending ran settles => ?_⟩
  cases iterate_unique stuck ran
  exact settles

end Example

end Executor
end Harness
end PhysicalHarness
