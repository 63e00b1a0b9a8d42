import Mathlib.Data.List.Basic

/-!
# Computations that write entries and may raise

A computation reads the entries that were written before it, appends entries of its
own and returns or raises; what it wrote before an exception stays.  There are two
rules for each construct: one says what holds of the result and the entries when the
computation returns, the other which entries it can have written at all.
-/

def Logged (ω ε α : Type) : Type := List ω → Except ε α × List ω

namespace Logged

variable {ω ε α β σ ι : Type}

def ret (value : α) : Logged ω ε α := fun log => (.ok value, log)

def andThen (first : Logged ω ε α) (next : α → Logged ω ε β) : Logged ω ε β := fun log =>
  match first log with
  | (.ok value, log) => next value log
  | (.error error, log) => (.error error, log)

instance instMonad : Monad (Logged ω ε) where
  pure := ret
  bind := andThen

def lift (run : Except ε α) : Logged ω ε α := fun log => (run, log)

def write (entry : ω) : Logged ω ε Unit := fun log => (.ok (), log ++ [entry])

/-- The entries so far. -/
def written : Logged ω ε (List ω) := fun log => (.ok log, log)

/-- The items in turn, until a step says that it was the last. -/
def iterate (step : σ → ι → Logged ω ε (σ × Bool)) (state : σ) : List ι → Logged ω ε σ
  | [] => ret state
  | item :: rest => step state item >>= fun next =>
      if next.2 then iterate step next.1 rest else ret next.1

theorem bind_eq_ok {first : Logged ω ε α} {next : α → Logged ω ε β} {log after : List ω} {result : β} :
    (first >>= next) log = (.ok result, after) ↔
      ∃ value middle, first log = (.ok value, middle) ∧ next value middle = (.ok result, after) := by
  change andThen first next log = _ ↔ _
  rw [andThen]
  rcases first log with ⟨_ | value, middle⟩
  · constructor
    · exact nofun
    · intro split
      rcases split with ⟨_, _, never, _⟩
      cases never
  · constructor
    · intro ran
      exact ⟨value, middle, rfl, ran⟩
    · intro split
      rcases split with ⟨_, _, same, ran⟩
      cases same
      exact ran

theorem lift_eq_ok {run : Except ε α} {log after : List ω} {result : α} :
    lift run log = (.ok result, after) ↔ run = .ok result ∧ log = after := by
  rw [lift, Prod.mk.injEq]

theorem bind_assoc {γ : Type} (first : Logged ω ε α) (next : α → Logged ω ε β) (last : β → Logged ω ε γ) :
    (first >>= next) >>= last = first >>= fun value => next value >>= last := by
  funext log
  change andThen (andThen first next) last log = andThen first (fun value => andThen (next value) last) log
  rw [andThen, andThen, andThen]
  rcases first log with ⟨_ | value, middle⟩ <;> rfl

theorem lift_bind_congr {run : Except ε α} {next other : α → Logged ω ε β}
    (same : ∀ value, run = .ok value → next value = other value) :
    (lift run >>= next) = (lift run >>= other) := by
  cases run with
  | error error => rfl
  | ok value => exact same value rfl

/-- From entries with `pre`, a result and entries with `post`. -/
def Ensures (pre : List ω → Prop) (run : Logged ω ε α) (post : α → List ω → Prop) : Prop :=
  ∀ log value after, pre log → run log = (.ok value, after) → post value after

namespace Ensures

variable {pre : List ω → Prop} {post : α → List ω → Prop}

theorem ret {value : α} (holds : ∀ log, pre log → post value log) :
    Ensures pre (Logged.ret value : Logged ω ε α) post := by
  intro log result after before ran
  cases ran
  exact holds log before

theorem write {entry : ω} {post : Unit → List ω → Prop}
    (holds : ∀ log, pre log → post () (log ++ [entry])) :
    Ensures pre (Logged.write entry : Logged ω ε Unit) post := by
  intro log value after before ran
  cases ran
  exact holds log before

theorem written {post : List ω → List ω → Prop} (holds : ∀ log, pre log → post log log) :
    Ensures pre (Logged.written : Logged ω ε (List ω)) post := by
  intro log value after before ran
  cases ran
  exact holds log before

theorem weaken {stronger : List ω → Prop} {run : Logged ω ε α} (ensures : Ensures pre run post)
    (implies : ∀ log, stronger log → pre log) : Ensures stronger run post :=
  fun log value after before ran => ensures log value after (implies log before) ran

theorem bind {middle : α → List ω → Prop} {first : Logged ω ε α} {next : α → Logged ω ε β}
    {post : β → List ω → Prop} (here : Ensures pre first middle)
    (later : ∀ value, Ensures (middle value) (next value) post) : Ensures pre (first >>= next) post := by
  intro log value after before ran
  rcases bind_eq_ok.mp ran with ⟨result, between, first_, next_⟩
  exact later result between value after (here log result between before first_) next_

theorem lift_bind {run : Except ε α} {next : α → Logged ω ε β} {post : β → List ω → Prop}
    (later : ∀ value, run = .ok value → Ensures pre (next value) post) :
    Ensures pre (Logged.lift run >>= next) post := by
  cases run with
  | error error =>
      intro log value after _ ran
      cases ran
  | ok value => exact later value rfl

theorem iterate {inv : σ → List ω → Prop} {step : σ → ι → Logged ω ε (σ × Bool)}
    (steps : ∀ state item, Ensures (inv state) (step state item) (fun next => inv next.1))
    (state : σ) (items : List ι) : Ensures (inv state) (Logged.iterate step state items) inv := by
  induction items generalizing state with
  | nil => exact ret (fun _ holds => holds)
  | cons item rest ih =>
      refine bind (steps state item) (fun next => ?_)
      rcases next with ⟨next, continues⟩
      cases continues with
      | false => exact ret (fun _ holds => holds)
      | true => exact ih next

end Ensures

/-- Every new entry is an allowed one, whether the computation returns or raises. -/
def Writes (allowed : ω → Prop) (run : Logged ω ε α) : Prop :=
  ∀ log, ∃ more, (run log).2 = log ++ more ∧ ∀ entry ∈ more, allowed entry

namespace Writes

variable {allowed : ω → Prop}

theorem ret (value : α) : Writes allowed (Logged.ret value : Logged ω ε α) :=
  fun log => ⟨[], (List.append_nil log).symm, List.forall_mem_nil _⟩

theorem lift (run : Except ε α) : Writes allowed (Logged.lift run) :=
  fun log => ⟨[], (List.append_nil log).symm, List.forall_mem_nil _⟩

theorem written : Writes allowed (Logged.written : Logged ω ε (List ω)) :=
  fun log => ⟨[], (List.append_nil log).symm, List.forall_mem_nil _⟩

theorem write {entry : ω} (holds : allowed entry) :
    Writes allowed (Logged.write entry : Logged ω ε Unit) := by
  intro log
  refine ⟨[entry], rfl, ?_⟩
  intro other mem
  rw [List.mem_singleton.mp mem]
  exact holds

theorem bind {first : Logged ω ε α} {next : α → Logged ω ε β} (here : Writes allowed first)
    (later : ∀ value, Writes allowed (next value)) : Writes allowed (first >>= next) := by
  intro log
  rcases here log with ⟨more, added, holds⟩
  change ∃ more, (andThen first next log).2 = _ ∧ _
  rw [andThen]
  generalize first log = outcome at added
  rcases outcome with ⟨_ | value, middle⟩
  · exact ⟨more, added, holds⟩
  · rcases later value middle with ⟨rest, added_, holds_⟩
    refine ⟨more ++ rest, ?_, ?_⟩
    · rw [← List.append_assoc, ← added]
      exact added_
    · intro entry mem
      exact (List.mem_append.mp mem).elim (holds entry) (holds_ entry)

theorem lift_bind {run : Except ε α} {next : α → Logged ω ε β}
    (later : ∀ value, run = .ok value → Writes allowed (next value)) :
    Writes allowed (Logged.lift run >>= next) := by
  cases run with
  | error error => exact lift (Except.error error)
  | ok value => exact later value rfl

theorem mono {run : Logged ω ε α} {wider : ω → Prop} (writes : Writes allowed run)
    (implies : ∀ entry, allowed entry → wider entry) : Writes wider run := by
  intro log
  rcases writes log with ⟨more, added, holds⟩
  exact ⟨more, added, fun entry mem => implies entry (holds entry mem)⟩

theorem iterate {step : σ → ι → Logged ω ε (σ × Bool)}
    (steps : ∀ state item, Writes allowed (step state item)) (state : σ) (items : List ι) :
    Writes allowed (Logged.iterate step state items) := by
  induction items generalizing state with
  | nil => exact ret state
  | cons item rest ih =>
      refine bind (steps state item) (fun next => ?_)
      rcases next with ⟨next, continues⟩
      cases continues with
      | false => exact ret next
      | true => exact ih next

theorem ensures {pre : List ω → Prop} {run : Logged ω ε α} (writes : Writes allowed run)
    (stable : ∀ log more, pre log → (∀ entry ∈ more, allowed entry) → pre (log ++ more)) :
    Ensures pre run (fun _ => pre) := by
  intro log value after before ran
  rcases writes log with ⟨more, added, holds⟩
  rw [ran] at added
  rw [show after = log ++ more from added]
  exact stable log more before holds

end Writes

end Logged
