import PhysicalHarness.Harness.Reload

namespace PhysicalHarness
namespace Harness

open Python JsonText

/-!
# Appends that fail

The rows in memory and the head of the chain move on before the line is written.
A write may raise after any part of its line, and the caller goes on: memory is
then ahead of the file until a process opens the ledger again, and the next line
that is written continues a chain the file does not hold.
-/

section

variable [Sha256] [FloatText] [KeySort]

inductive Attempt where
  /-- A call of `append`; with `torn` its write raises after that many characters. -/
  | append (kind : String) (data : Data) (torn : Option Nat)
  /-- A process opens the ledger with `load`. -/
  | reopen

def onDisk (torn : Option Nat) (line : List Char) : List Char :=
  match torn with
  | none => line
  | some count => line.take count

/-- One attempt: the row of a call that returned, and the ledger after it.  The
rows and the chain are changed by a call that raises in its write, too. -/
def Rooted.attempt (ledger : Rooted) : Attempt → List Row × Rooted
  | .append kind data torn =>
      match ledger.log.append kind data with
      | none => ([], ledger)
      | some (row, log) =>
          match row.line with
          | none => ([], ⟨log, ledger.file⟩)
          | some line =>
              (if torn.isNone then [row] else [], ⟨log, ledger.file ++ onDisk torn line⟩)
  | .reopen =>
      match ledger.reopen with
      | none => ([], ledger)
      | some opened => ([], opened)

/-- The rows of the calls that returned, and the ledger after all attempts. -/
def Rooted.attempts (ledger : Rooted) : List Attempt → List Row × Rooted
  | [] => ([], ledger)
  | attempt :: rest =>
      let next := ledger.attempt attempt
      let later := next.2.attempts rest
      (next.1 ++ later.1, later.2)

/-- What the attempts must not do, for a process that has seen a write fail or
has not: print keys that do not ascend, write a part of a line, or write after a
failed write. -/
def Careful : Bool → List Attempt → Prop
  | _, [] => True
  | failed, .append _ data torn :: rest =>
      (data.payload = none ∧ Careful failed rest) ∨
        (data.payload ≠ none ∧ data.Steady ∧
          ((torn = some 0 ∧ Careful true rest) ∨ (torn = none ∧ failed = false ∧ Careful false rest)))
  | _, .reopen :: rest => Careful false rest

/-- The file loads and verifies, and holds the rows of the calls that returned. -/
def Whole (made : List Row) (ledger : Rooted) : Prop :=
  ∃ log, SessionLog.load ledger.file = some log ∧ verify log.rows = .ok true ∧
    log.rows.map Row.label = made.map Row.label ∧
      log.rows.map (fun row => row.data.payload) = made.map (fun row => row.data.payload)

/-- The file holds the rows; memory goes on from them unless a write has failed. -/
structure Saved (failed : Bool) (made : List Row) (ledger : Rooted) : Prop where
  written : Written made ledger.file
  linked : Linked (chainStart sessionSeed) made
  numbered : made.map Row.seq = List.range made.length
  steady : ∀ row ∈ made, row.data.Steady
  current : failed = false → Holds made ledger

theorem saved_fresh : Saved false [] Rooted.fresh :=
  ⟨rfl, trivial, rfl, List.forall_mem_nil _, fun _ => holds_fresh⟩

variable {ledger : Rooted} {made : List Row}

theorem Holds.saved (holds : Holds made ledger) (steady : ∀ row ∈ made, row.data.Steady) :
    Saved false made ledger :=
  ⟨holds.written, holds.linked, holds.numbered, steady, fun _ => holds⟩

theorem attempt_of_payload_none (ledger : Rooted) (kind : String) {data : Data} (torn : Option Nat)
    (silent : data.payload = none) : ledger.attempt (.append kind data torn) = ([], ledger) := by
  rw [Rooted.attempt, SessionLog.append, silent]
  rfl

theorem attempt_of_append {next : Rooted} {kind : String} {data : Data} {row : Row}
    (appended : ledger.append kind data = some (row, next)) :
    ledger.attempt (.append kind data none) = ([row], next) := by
  rcases Option.bind_eq_some_iff.mp appended with ⟨made, append, later⟩
  rcases Option.map_eq_some_iff.mp later with ⟨line, printed, same⟩
  cases same
  rw [Rooted.attempt, append]
  simp only [printed]
  rfl

theorem file_attempt_torn_zero (ledger : Rooted) (kind : String) (data : Data) :
    (ledger.attempt (.append kind data (some 0))).1 = [] ∧
      (ledger.attempt (.append kind data (some 0))).2.file = ledger.file := by
  rw [Rooted.attempt]
  cases ledger.log.append kind data with
  | none => exact ⟨rfl, rfl⟩
  | some made =>
      rcases made with ⟨row, log⟩
      simp only []
      cases row.line with
      | none => exact ⟨rfl, rfl⟩
      | some line => exact ⟨rfl, List.append_nil _⟩

theorem Saved.reopen {failed : Bool} (saved : Saved failed made ledger) :
    (ledger.attempt .reopen).1 = [] ∧ Saved false made (ledger.attempt .reopen).2 := by
  have opened : ledger.reopen = some ⟨⟨made.map Row.reloaded, headOf made⟩, ledger.file⟩ := by
    rw [Rooted.reopen, load_written saved.written]
    rfl
  have attempt : ledger.attempt .reopen =
      ([], ⟨⟨made.map Row.reloaded, headOf made⟩, ledger.file⟩) := by
    rw [Rooted.attempt, opened]
  have holds : Holds made ⟨⟨made.map Row.reloaded, headOf made⟩, ledger.file⟩ :=
    ⟨saved.written, saved.linked, rfl, List.length_map _, saved.numbered⟩
  rw [attempt]
  exact ⟨rfl, holds.saved saved.steady⟩

theorem Saved.whole {failed : Bool} (saved : Saved failed made ledger) : Whole made ledger := by
  refine ⟨_, load_written saved.written, ?_, ?_, ?_⟩
  · exact (verify_eq_true_iff _).mpr (linked_reloaded saved.linked saved.steady)
  · rw [List.map_map]
    rfl
  · rw [List.map_map]
    apply List.map_congr_left
    intro row mem
    rcases sealed_of_linked saved.linked row mem with ⟨payload, printed, _⟩
    rw [Function.comp_apply, printed]
    exact (payload_reloaded_iff row printed).mpr (saved.steady row mem)

theorem Saved.attempts {failed : Bool} {attempts : List Attempt} (saved : Saved failed made ledger)
    (careful : Careful failed attempts) :
    Whole (made ++ (ledger.attempts attempts).1) (ledger.attempts attempts).2 := by
  induction attempts generalizing failed made ledger with
  | nil =>
      rw [Rooted.attempts, List.append_nil]
      exact saved.whole
  | cons attempt rest ih =>
      rw [Rooted.attempts, ← List.append_assoc]
      cases attempt with
      | reopen =>
          rcases saved.reopen with ⟨nothing, opened⟩
          rw [nothing, List.append_nil]
          exact ih opened careful
      | append kind data torn =>
          rcases careful with ⟨silent, careful⟩ | ⟨prints, steady, torn_⟩
          · rw [attempt_of_payload_none ledger kind torn silent, List.append_nil]
            exact ih saved careful
          · rcases torn_ with ⟨rfl, careful⟩ | ⟨rfl, current, careful⟩
            · rcases file_attempt_torn_zero ledger kind data with ⟨nothing, file⟩
              rw [nothing, List.append_nil]
              apply ih _ careful
              exact ⟨file ▸ saved.written, saved.linked, saved.numbered, saved.steady,
                fun never => Bool.noConfusion never⟩
            · rcases Option.ne_none_iff_exists'.mp prints with ⟨payload, printed⟩
              rcases exists_append ledger kind printed with ⟨row, next, same, appended⟩
              rw [attempt_of_append appended]
              apply ih _ careful
              apply ((saved.current current).append appended).saved
              intro other mem
              rcases List.mem_append.mp mem with before | last
              · exact saved.steady other before
              · rw [List.mem_singleton.mp last, same]
                exact steady

/-- The file is whole after every run of careful attempts. -/
theorem whole_of_careful (attempts : List Attempt) (careful : Careful false attempts) :
    Whole (Rooted.fresh.attempts attempts).1 (Rooted.fresh.attempts attempts).2 :=
  saved_fresh.attempts careful

end

section

local instance crashSha : Sha256 := sha256

local instance crashFloats : FloatText := exactDecimals

local instance crashSort : KeySort := insertionKeySort

/-- The first call raises before its write, the second returns. -/
def failedOnce : List Attempt := [.append "mount" mountData (some 0), .append "mount" mountData none]

def secondRow : Row :=
  ⟨1, "mount", mountData, sha mountPayload, chainStep (mountRow 0).chain "mount" [sha mountPayload]⟩

theorem attempts_failedOnce : ∃ line, secondRow.line = some line ∧
    (Rooted.fresh.attempts failedOnce).1 = [secondRow] ∧
      (Rooted.fresh.attempts failedOnce).2.file = line := by
  rcases Option.map_eq_some_iff.mp payload_mountData with ⟨value, read, _⟩
  have line := line_eq secondRow read
  have line_ := line_eq (mountRow 0) read
  have first : Rooted.fresh.attempt (.append "mount" mountData (some 0)) =
      ([], ⟨⟨[mountRow 0], (mountRow 0).chain⟩, []⟩) := by
    have append : SessionLog.fresh.append "mount" mountData =
        some (mountRow 0, ⟨[mountRow 0], (mountRow 0).chain⟩) := by
      rw [SessionLog.append, payload_mountData]
      rfl
    rw [Rooted.attempt, Rooted.fresh, append]
    simp only [line_]
    rfl
  have second : (Rooted.mk ⟨[mountRow 0], (mountRow 0).chain⟩ []).append "mount" mountData =
      some (secondRow, ⟨⟨[mountRow 0, secondRow], secondRow.chain⟩,
        print plain 0 (rowJson secondRow value) ++ ['\n']⟩) := by
    let write : List Char → Row × Rooted := fun text =>
      (secondRow, ⟨⟨[mountRow 0, secondRow], secondRow.chain⟩, [] ++ text⟩)
    rw [Rooted.append, SessionLog.append, payload_mountData]
    exact congrArg (Option.map write) line
  refine ⟨_, line, ?_⟩
  rw [failedOnce, Rooted.attempts, Rooted.attempts, Rooted.attempts, first,
    attempt_of_append second]
  exact ⟨rfl, rfl⟩

theorem sha_secondChain_ne :
    sha (joined "85221abb0738bb73d877d53289e50f912fe9b1f8b9f3cef65a821de09d9205ec"
      ["mount", "61d77b5a23ec37b3f39ae632df176f2f6eb8ca8d9ddba2d768874c16f6f7a38f"]) ≠
    "85221abb0738bb73d877d53289e50f912fe9b1f8b9f3cef65a821de09d9205ec" := by
  decide +kernel

/-- After it the file loads and does not verify. -/
theorem not_whole_failedOnce :
    ¬ Whole (Rooted.fresh.attempts failedOnce).1 (Rooted.fresh.attempts failedOnce).2 := by
  rcases attempts_failedOnce with ⟨line, printed, made, file⟩
  rintro ⟨log, loaded, verified, _⟩
  have written : Written [secondRow] line := ⟨line, [], printed, rfl, (List.append_nil line).symm⟩
  rw [file, load_written written, Option.some_inj] at loaded
  rw [← loaded] at verified
  have chained : secondRow.chain = chainStep (chainStart sessionSeed) "mount" [sha mountPayload] :=
    ((verify_eq_true_iff _).mp verified).2.1
  have first : chainStep (chainStart sessionSeed) "mount" [sha mountPayload] =
      "85221abb0738bb73d877d53289e50f912fe9b1f8b9f3cef65a821de09d9205ec" := sha_mountChain
  apply sha_secondChain_ne
  rw [← sha_mountPayload, ← first]
  exact chained

theorem whole_of_careful_mount :
    Whole (Rooted.fresh.attempts [.append "mount" mountData none, .append "mount" mountData (some 0),
        .reopen, .append "mount" mountData none]).1
      (Rooted.fresh.attempts [.append "mount" mountData none, .append "mount" mountData (some 0),
        .reopen, .append "mount" mountData none]).2 := by
  have prints : mountData.payload ≠ none := by
    rw [payload_mountData]
    exact Option.some_ne_none _
  apply whole_of_careful
  refine Or.inr ⟨prints, steady_mountData, Or.inr ⟨rfl, rfl, ?_⟩⟩
  refine Or.inr ⟨prints, steady_mountData, Or.inl ⟨rfl, ?_⟩⟩
  exact Or.inr ⟨prints, steady_mountData, Or.inr ⟨rfl, rfl, trivial⟩⟩

end

end Harness
end PhysicalHarness
