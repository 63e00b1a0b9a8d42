import PhysicalHarness.Lib.Fallible

/-!
# Gates

A gate is a sequence of checks that stops at the first refusal and may also
raise.  A refusal is an answer: it carries the message for whoever proposed the
input.  Raising is a defect of the gate.  The rules below say when a sequence of
checks gives an answer at all, in terms of its parts.
-/

universe u v

inductive Stop (ε : Type u) where
  | refuse (message : String)
  | raise (error : ε)

abbrev Gate (ε : Type u) (α : Type v) := Except (Stop ε) α

namespace Gate

variable {ε : Type u} {α β : Type v}

def refuse (message : String) : Gate ε α := .error (.refuse message)

def lift : Except ε α → Gate ε α
  | .ok value => .ok value
  | .error error => .error (.raise error)

/-- The pair `(ok, message)` a gate answers with. -/
def settle : Gate ε α → Except ε (Bool × String)
  | .ok _ => .ok (true, "")
  | .error (.refuse message) => .ok (false, message)
  | .error (.raise error) => .error error

/-- The check does not raise. -/
def Settles (gate : Gate ε α) : Prop := ∀ error, gate ≠ .error (.raise error)

@[simp] theorem settles_ok (value : α) : Settles (.ok value : Gate ε α) := by
  intro error never
  cases never

@[simp] theorem settles_refuse (message : String) :
    Settles (refuse message : Gate ε α) := by
  intro error never
  cases never

variable {check : α → Gate ε PUnit.{v + 1}} {next : α → Gate ε β} {run : Except ε α}
  {message : String} {gate : Gate ε α} {condition : Bool} {items : List α}

theorem returns_settle_iff :
    Fallible.Returns gate.settle ↔ gate.Settles := by
  cases gate with
  | ok value => exact ⟨fun _ => settles_ok value, fun _ => ⟨_, rfl⟩⟩
  | error stop =>
      cases stop with
      | refuse message => exact ⟨fun _ => settles_refuse message, fun _ => ⟨_, rfl⟩⟩
      | raise error =>
          constructor
          · rintro ⟨_, never⟩
            cases never
          · intro settles
            exact absurd rfl (settles error)

theorem settle_eq_accept_iff :
    gate.settle = .ok (true, message) ↔ (∃ value, gate = .ok value) ∧ message = "" := by
  cases gate with
  | ok value =>
      constructor
      · intro same
        cases same
        exact ⟨⟨value, rfl⟩, rfl⟩
      · rintro ⟨_, same⟩
        cases same
        rfl
  | error stop =>
      constructor
      · intro never
        cases stop <;> cases never
      · rintro ⟨⟨_, never⟩, _⟩
        cases never

theorem settles_bind :
    Settles (gate >>= next) ↔ gate.Settles ∧ ∀ value, gate = .ok value → (next value).Settles := by
  cases gate with
  | ok value =>
      constructor
      · intro settles
        exact ⟨settles_ok value, fun other same => by cases same; exact settles⟩
      · rintro ⟨_, rest⟩
        exact rest value rfl
  | error stop =>
      constructor
      · intro settles
        refine ⟨?_, nofun⟩
        intro error same
        cases same
        exact settles error rfl
      · rintro ⟨settles, _⟩ error same
        cases same
        exact settles error rfl

theorem lift_eq_ok {value : α} : lift run = .ok value ↔ run = .ok value := by
  cases run with
  | ok other => simp [lift]
  | error error => simp [lift]

theorem settles_lift_iff : (lift run).Settles ↔ Fallible.Returns run := by
  cases run with
  | ok value => exact ⟨fun _ => ⟨value, rfl⟩, fun _ => settles_ok value⟩
  | error error =>
      constructor
      · intro settles
        exact absurd rfl (settles error)
      · rintro ⟨_, never⟩
        cases never

def require (condition : Bool) (message : String) : Gate ε PUnit.{v + 1} :=
  if condition then .ok ⟨⟩ else refuse message

theorem require_eq_ok_iff {value : PUnit.{v + 1}} :
    (require condition message : Gate ε PUnit.{v + 1}) = .ok value ↔ condition = true := by
  unfold require refuse
  cases condition <;> simp

@[simp] theorem settles_require (condition : Bool) (message : String) :
    Settles (require condition message : Gate ε PUnit.{v + 1}) := by
  unfold require
  cases condition
  · exact settles_refuse message
  · exact settles_ok _

theorem require_bind_eq_ok {next : PUnit.{v + 1} → Gate ε β} {result : β} :
    (require condition message >>= next) = .ok result ↔
      condition = true ∧ next ⟨⟩ = .ok result := by
  rw [Fallible.bind_eq_ok]
  constructor
  · rintro ⟨_, passed, rest⟩
    exact ⟨require_eq_ok_iff.mp passed, rest⟩
  · rintro ⟨passed, rest⟩
    exact ⟨⟨⟩, require_eq_ok_iff.mpr passed, rest⟩

theorem lift_bind_eq_ok {result : β} :
    (lift run >>= next) = .ok result ↔ ∃ value, run = .ok value ∧ next value = .ok result := by
  simp only [Fallible.bind_eq_ok, lift_eq_ok]

theorem settles_require_bind {next : PUnit.{v + 1} → Gate ε β} :
    Settles (require condition message >>= next) ↔ (condition = true → (next ⟨⟩).Settles) := by
  rw [settles_bind]
  constructor
  · rintro ⟨_, rest⟩ passed
    exact rest ⟨⟩ (require_eq_ok_iff.mpr passed)
  · intro rest
    exact ⟨settles_require _ _, fun _ passed => rest (require_eq_ok_iff.mp passed)⟩

theorem settles_lift_bind :
    Settles (lift run >>= next) ↔
      Fallible.Returns run ∧ ∀ value, run = .ok value → (next value).Settles := by
  simp only [settles_bind, settles_lift_iff, lift_eq_ok]

/-- Check the items in order, up to the first that stops. -/
def each (check : α → Gate ε PUnit.{v + 1}) : List α → Gate ε PUnit.{v + 1}
  | [] => .ok ⟨⟩
  | item :: rest => check item >>= fun _ => each check rest

theorem each_eq_ok_iff :
    each check items = .ok ⟨⟩ ↔ ∀ item ∈ items, check item = .ok ⟨⟩ := by
  induction items with
  | nil => simp [each]
  | cons item rest ih =>
      rw [each, Fallible.bind_eq_ok]
      constructor
      · rintro ⟨_, here, tail⟩ other mem
        rcases List.mem_cons.mp mem with same | later
        · exact same ▸ here
        · exact ih.mp tail other later
      · intro all
        exact ⟨⟨⟩, all item (.head _),
          ih.mpr (fun other mem => all other (.tail _ mem))⟩

/-- The loop raises exactly when the check raises on an item that all earlier
items let it reach. -/
theorem settles_each_iff :
    (each check items).Settles ↔ ∀ first item rest, items = first ++ item :: rest →
      (∀ earlier ∈ first, check earlier = .ok ⟨⟩) → (check item).Settles := by
  induction items with
  | nil =>
      constructor
      · intro _ first item rest split
        simp at split
      · intro _
        exact settles_ok _
  | cons head tail ih =>
      rw [each, settles_bind]
      constructor
      · rintro ⟨here, there⟩ first item rest split passed
        cases first with
        | nil =>
            cases split
            exact here
        | cons earlier others =>
            obtain ⟨same, tailSplit⟩ := List.cons.inj split
            subst same
            exact ih.mp (there ⟨⟩ (passed head (.head _))) others item rest tailSplit
              (fun other mem => passed other (.tail _ mem))
      · intro reached
        refine ⟨reached [] head tail rfl nofun, ?_⟩
        intro _ passed
        refine ih.mpr (fun first item rest split earlierPassed => ?_)
        refine reached (head :: first) item rest (by rw [split]; rfl) (fun other mem => ?_)
        rcases List.mem_cons.mp mem with same | later
        · exact same ▸ passed
        · exact earlierPassed other later

theorem settles_each (settles : ∀ item ∈ items, (check item).Settles) :
    (each check items).Settles :=
  settles_each_iff.mpr (fun _ item _ split _ =>
    settles item (split ▸ List.mem_append_right _ List.mem_cons_self))

end Gate
