import PhysicalHarness.Python.JsonLine
import PhysicalHarness.Harness.Commitment

namespace PhysicalHarness
namespace Harness

open Python JsonText

/-!
# A ledger that is read back

A row is one line of the file, and reading the file gives every row back with the
digests that were written.  Its payload is printed again from what was read: the
text is the one that was hashed exactly when the keys of the first text ascended,
which sorting before the keys become text does not promise.
-/

section

variable [Sha256] [FloatText] [KeySort]

def rowJson (row : Row) (value : Json) : Json :=
  .obj [("chain", .str row.chain), ("data", value), ("kind", .str row.kind), ("seq", .int row.seq),
    ("sha", .str row.sha)]

variable {rows : List Row} {payload : String} {value : Json}

omit [Sha256] in
theorem normalize_toData (row : Row) (read : row.data.normalize = some value) :
    row.toData.normalize = some (rowJson row value) := by
  have sorted : sortFields [("seq", Json.int row.seq), ("kind", .str row.kind), ("data", value),
      ("sha", .str row.sha), ("chain", .str row.chain)] =
      [("chain", .str row.chain), ("data", value), ("kind", .str row.kind), ("seq", .int row.seq),
        ("sha", .str row.sha)] := by
    simp [sortFields, List.insertionSort, List.orderedInsert]
  have fields := Data.fieldsOf_strItems [("seq", Json.int row.seq), ("kind", .str row.kind),
    ("data", value), ("sha", .str row.sha), ("chain", .str row.chain)] (by simp [Assoc.keys])
  rw [sorted] at fields
  simp only [Row.toData, Data.normalize, Data.normalizeEntries, read, Option.bind_some,
    Option.map_some]
  exact congrArg (Option.map Json.obj) fields

omit [Sha256] in
theorem line_eq (row : Row) (read : row.data.normalize = some value) :
    row.line = some (print plain 0 (rowJson row value) ++ ['\n']) := by
  rw [Row.line, normalize_toData row read]
  rfl

/-- The row as it is read back. -/
def Row.reloaded (row : Row) : Row :=
  { row with data := .ofJson (rebuild gather (row.data.normalize.getD .null)) }

omit [Sha256] in
theorem rowOf_rebuild (row : Row) (read : row.data.normalize = some value) :
    rowOf (rebuild gather (rowJson row value)) = some row.reloaded := by
  have fields : gather [("chain", Json.str row.chain), ("data", rebuild gather value),
      ("kind", .str row.kind), ("seq", .int row.seq), ("sha", .str row.sha)] =
      rowJson row (rebuild gather value) :=
    gather_of_nodup (by simp [Assoc.keys])
  have whole : rebuild gather (rowJson row value) = rowJson row (rebuild gather value) := fields
  rw [whole]
  simp [rowOf, rowJson, Json.get?, Assoc.get?, Json.str?, Row.reloaded, read]

/-! ## The file -/

omit [Sha256] [FloatText] [KeySort] in
theorem fileLines_line {line : List Char} (printable : Printable line) (rest : List Char) :
    fileLines (line ++ '\n' :: rest) = line :: fileLines rest := by
  induction line with
  | nil =>
      rw [List.nil_append, fileLines, if_pos (Or.inl rfl)]
  | cons char line ih =>
      have visible := printable char (.head _)
      have inside : ¬ (char = '\n' ∨ char = '\r') := by
        rintro (rfl | rfl) <;> cases visible
      rw [List.cons_append, fileLines, if_neg inside,
        ih (fun other mem => printable other (.tail _ mem))]

def Written : List Row → List Char → Prop
  | [], file => file = []
  | row :: rest, file => ∃ line more, row.line = some line ∧ Written rest more ∧ file = line ++ more

omit [Sha256] in
theorem written_snoc {row : Row} {file line : List Char} (written : Written rows file)
    (printed : row.line = some line) :
    Written (rows ++ [row]) (file ++ line) := by
  induction rows generalizing file with
  | nil =>
      rw [show file = [] from written]
      exact ⟨line, [], printed, rfl, (List.append_nil line).symm⟩
  | cons first rest ih =>
      rcases written with ⟨head, more, printed_, written, rfl⟩
      exact ⟨head, more ++ line, printed_, ih written, List.append_assoc _ _ _⟩

omit [Sha256] in
theorem exists_normalize_of_line {row : Row} {line : List Char} (printed : row.line = some line) :
    ∃ value, row.data.normalize = some value := by
  cases read : row.data.normalize with
  | some value => exact ⟨value, rfl⟩
  | none =>
      rw [Row.line, Row.toData] at printed
      simp only [Data.normalize, Data.normalizeEntries, read, Option.bind_some, Option.bind_none,
        Option.map_none, reduceCtorEq] at printed

omit [Sha256] in
theorem readLines_written {file : List Char} (written : Written rows file) :
    readLines (fileLines file) = some (rows.map Row.reloaded) := by
  induction rows generalizing file with
  | nil =>
      rw [show file = [] from written]
      rfl
  | cons row rest ih =>
      rcases written with ⟨line, more, printed, written, rfl⟩
      rcases exists_normalize_of_line printed with ⟨value, read⟩
      rw [line_eq row read, Option.some_inj] at printed
      have proper : Proper (rowJson row value) := by
        have inside := Data.proper_normalize row.data read
        exact ⟨trivial, trivial, inside, trivial, trivial, trivial, trivial⟩
      have text : strip (print plain 0 (rowJson row value)) = print plain 0 (rowJson row value) :=
        strip_print_obj plain _
      have more_ : print plain 0 (rowJson row value) ≠ [] := by
        rcases exists_print_obj plain 0 [("chain", .str row.chain), ("data", value),
          ("kind", .str row.kind), ("seq", .int row.seq), ("sha", .str row.sha)] with ⟨inner, braces⟩
        rw [rowJson, braces]
        exact List.cons_ne_nil _ _
      rw [← printed, List.append_assoc, List.singleton_append,
        fileLines_line (printable_print oneLine_plain 0 _), readLines, text, if_neg more_,
        loads_print plain proper, Option.bind_some, rowOf_rebuild row read, Option.bind_some,
        ih written]
      rfl

/-- The head of the chain that `load` goes on from. -/
def headOf (rows : List Row) : String := (rows.getLast?.map Row.chain).getD (chainStart sessionSeed)

theorem load_written {file : List Char} (written : Written rows file) :
    SessionLog.load file = some ⟨rows.map Row.reloaded, headOf rows⟩ := by
  rw [SessionLog.load, readLines_written written, Option.map_some, List.getLast?_map, Option.map_map]
  rfl

omit [Sha256] in
theorem payload_reloaded (row : Row) (read : row.data.normalize = some value) :
    row.reloaded.data.payload = some (dumps compact (sortKeys (rebuild gather value))) := by
  have proper := Data.proper_normalize row.data read
  rw [Row.reloaded, Data.payload, read, Option.getD_some,
    Data.normalize_ofJson _ (proper_rebuild_gather proper) (distinct_rebuild_gather proper)]
  rfl

omit [Sha256] in
theorem payload_reloaded_iff (row : Row) (printed : row.data.payload = some payload) :
    row.reloaded.data.payload = some payload ↔ Data.Steady row.data := by
  rcases Option.map_eq_some_iff.mp printed with ⟨value, read, text⟩
  have proper := Data.proper_normalize row.data read
  rw [payload_reloaded row read, ← text, Option.some_inj, dumps, dumps, String.ofList_inj,
    print_sortKeys_loads_iff proper, Data.steady_iff read]

/-- The payloads that print. -/
def payloads (rows : List Row) : List String := rows.filterMap (fun row => row.data.payload)

theorem linked_reloaded {chain : String} (linked : Linked chain rows)
    (steady : ∀ row ∈ rows, row.data.Steady) : Linked chain (rows.map Row.reloaded) := by
  induction rows generalizing chain with
  | nil => exact trivial
  | cons row rest ih =>
      rcases linked with ⟨⟨payload, printed, named⟩, chained, linked⟩
      have again := (payload_reloaded_iff row printed).mpr (steady row (.head _))
      exact ⟨⟨payload, again, named⟩, chained,
        ih linked (fun other mem => steady other (.tail _ mem))⟩

theorem steady_of_linked_reloaded {chain : String} (linked : Linked chain rows)
    (again : Linked chain (rows.map Row.reloaded))
    (free : CollisionFree (payloads rows ++ payloads (rows.map Row.reloaded))) :
    ∀ row ∈ rows, row.data.Steady := by
  induction rows generalizing chain with
  | nil => exact fun row never => absurd never List.not_mem_nil
  | cons row rest ih =>
      rcases linked with ⟨⟨payload, printed, named⟩, _, linked⟩
      rcases again with ⟨⟨payload_, printed_, named_⟩, _, again⟩
      have texts : payload = payload_ := by
        apply free payload _ payload_ _ (named.symm.trans named_)
        · exact List.mem_append_left _ (List.mem_filterMap.mpr ⟨row, .head _, printed⟩)
        · exact List.mem_append_right _
            (List.mem_filterMap.mpr ⟨row.reloaded, .head _, printed_⟩)
      have later : CollisionFree (payloads rest ++ payloads (rest.map Row.reloaded)) := by
        apply free.mono
        intro text mem
        have tail : ∀ (row : Row) (rows : List Row), text ∈ payloads rows → text ∈ payloads (row :: rows) := by
          intro row rows found
          rcases List.mem_filterMap.mp found with ⟨other, listed, printed⟩
          exact List.mem_filterMap.mpr ⟨other, .tail _ listed, printed⟩
        rcases List.mem_append.mp mem with first | second
        · exact List.mem_append_left _ (tail row rest first)
        · exact List.mem_append_right _ (tail row.reloaded (rest.map Row.reloaded) second)
      intro other mem
      rcases List.mem_cons.mp mem with rfl | after
      · rw [← texts] at printed_
        exact (payload_reloaded_iff other printed).mp printed_
      · exact ih linked again later other after

/-! ## Processes that append -/

/-- A log with a root: the log of the running process, and the file. -/
structure Rooted where
  log : SessionLog
  file : List Char

/-- `SessionLog(root)` at a fresh root. -/
def Rooted.fresh : Rooted := ⟨SessionLog.fresh, []⟩

/-- `append`, where the write succeeds; `none` when it raises. -/
def Rooted.append (ledger : Rooted) (kind : String) (data : Data) : Option (Row × Rooted) :=
  (ledger.log.append kind data).bind (fun made =>
    made.1.line.map (fun line => (made.1, ⟨made.2, ledger.file ++ line⟩)))

theorem exists_append (ledger : Rooted) (kind : String) {data : Data}
    (printed : data.payload = some payload) :
    ∃ row next, row.data = data ∧ ledger.append kind data = some (row, next) := by
  rcases Option.map_eq_some_iff.mp printed with ⟨value, read, _⟩
  let row : Row := ⟨ledger.log.rows.length, kind, data, sha payload,
    chainStep ledger.log.chain kind [sha payload]⟩
  refine ⟨row, ⟨⟨ledger.log.rows ++ [row], row.chain⟩, ledger.file ++
    (print plain 0 (rowJson row value) ++ ['\n'])⟩, rfl, ?_⟩
  rw [Rooted.append, SessionLog.append, printed, Option.map_some, Option.bind_some]
  exact congrArg (Option.map _) (line_eq row read)

/-- Another process opens the ledger with `load`. -/
def Rooted.reopen (ledger : Rooted) : Option Rooted :=
  (SessionLog.load ledger.file).map (fun log => ⟨log, ledger.file⟩)

inductive Call where
  | append (kind : String) (data : Data)
  | reopen

/-- The calls one after another, all of which return, with the rows they made. -/
def Rooted.run (ledger : Rooted) : List Call → Option (List Row × Rooted)
  | [] => some ([], ledger)
  | .append kind data :: rest =>
      (ledger.append kind data).bind (fun made =>
        (made.2.run rest).map (fun later => (made.1 :: later.1, later.2)))
  | .reopen :: rest => ledger.reopen.bind (fun opened => opened.run rest)

theorem exists_run_append (ledger : Rooted) (kind : String) {data : Data}
    (printed : data.payload = some payload) :
    ∃ row next, row.data = data ∧ ledger.run [.append kind data] = some ([row], next) := by
  rcases exists_append ledger kind printed with ⟨row, next, same, appended⟩
  refine ⟨row, next, same, ?_⟩
  rw [Rooted.run, appended]
  rfl

structure Holds (rows : List Row) (ledger : Rooted) : Prop where
  written : Written rows ledger.file
  linked : Linked (chainStart sessionSeed) rows
  head : ledger.log.chain = headOf rows
  length : ledger.log.rows.length = rows.length
  numbered : rows.map Row.seq = List.range rows.length

theorem holds_fresh : Holds [] Rooted.fresh :=
  ⟨rfl, trivial, rfl, rfl, rfl⟩

theorem Holds.append {ledger next : Rooted} {row : Row} {kind : String} {data : Data}
    (holds : Holds rows ledger) (appended : ledger.append kind data = some (row, next)) :
    Holds (rows ++ [row]) next := by
  rcases Option.bind_eq_some_iff.mp appended with ⟨made, append, later⟩
  rcases Option.map_eq_some_iff.mp later with ⟨line, printed, same⟩
  rcases Option.map_eq_some_iff.mp append with ⟨payload, read, rfl⟩
  cases same
  refine ⟨written_snoc holds.written printed, ?_, ?_, ?_, ?_⟩
  · refine (linked_snoc _ rows _).mpr ⟨holds.linked, ⟨payload, read, rfl⟩, ?_⟩
    rw [← chain_getLast_of_linked holds.linked]
    exact congrArg (fun chain => chainStep chain kind [sha payload]) holds.head
  · rw [headOf, List.getLast?_concat]
    rfl
  · rw [List.length_append, List.length_append, holds.length]
  · rw [List.map_append, holds.numbered, List.length_append, List.length_singleton, List.range_succ,
      ← holds.length]
    rfl

theorem Holds.reopen {ledger next : Rooted} (holds : Holds rows ledger)
    (opened : ledger.reopen = some next) : Holds rows next := by
  rw [Rooted.reopen, load_written holds.written, Option.map_some, Option.some_inj] at opened
  rw [← opened]
  exact ⟨holds.written, holds.linked, rfl, List.length_map _, holds.numbered⟩

theorem Holds.run {calls : List Call} {made : List Row} {ledger last : Rooted}
    (holds : Holds rows ledger) (ran : ledger.run calls = some (made, last)) :
    Holds (rows ++ made) last := by
  induction calls generalizing rows made ledger with
  | nil =>
      cases ran
      rw [List.append_nil]
      exact holds
  | cons call rest ih =>
      cases call with
      | append kind data =>
          rcases Option.bind_eq_some_iff.mp ran with ⟨first, appended, later⟩
          rcases Option.map_eq_some_iff.mp later with ⟨others, went, same⟩
          cases same
          have more := ih (holds.append appended) went
          rw [List.append_assoc] at more
          exact more
      | reopen =>
          rcases Option.bind_eq_some_iff.mp ran with ⟨next, opened, went⟩
          exact ih (holds.reopen opened) went

/-- What stands in the file of a row, apart from its payload. -/
def Row.label (row : Row) : Nat × String × String × String :=
  (row.seq, row.kind, row.sha, row.chain)

/-- The file loads and verifies, and its rows are those that were made. -/
def Reverifies (made : List Row) (ledger : Rooted) : Prop :=
  ∃ log, SessionLog.load ledger.file = some log ∧ verify log.rows = .ok true ∧
    log.rows.map Row.label = made.map Row.label ∧ log.rows.map Row.seq = List.range made.length

/-- A ledger written by any calls that return, in one process or several, is read
back with the seq, kind, digest and chain value of every row.  It verifies when
the keys of every payload ascend in its text, and only then unless two payloads
have one digest. -/
theorem written_ledger_reverifies (calls : List Call) (made : List Row) (ledger : Rooted)
    (ran : Rooted.fresh.run calls = some (made, ledger)) :
    ((∀ row ∈ made, row.data.Steady) → Reverifies made ledger) ∧
    (CollisionFree (payloads made ++ payloads (made.map Row.reloaded)) →
      Reverifies made ledger → ∀ row ∈ made, row.data.Steady) := by
  have holds : Holds made ledger := holds_fresh.run ran
  have loaded := load_written holds.written
  constructor
  · intro steady
    refine ⟨_, loaded, ?_, ?_, ?_⟩
    · exact (verify_eq_true_iff _).mpr (linked_reloaded holds.linked steady)
    · rw [List.map_map]
      rfl
    · rw [← holds.numbered, List.map_map]
      rfl
  · rintro free ⟨log, loaded_, verified, _, _⟩
    rw [loaded, Option.some_inj] at loaded_
    rw [← loaded_] at verified
    exact steady_of_linked_reloaded holds.linked ((verify_eq_true_iff _).mp verified) free

end

section

local instance noteSha : Sha256 := sha256

local instance noteFloats : FloatText := exactDecimals

local instance noteSort : KeySort := insertionKeySort

theorem steady_mountData : mountData.Steady := by
  apply Data.steady_of_strKeys
  refine ⟨?_, List.nodup_singleton _, trivial, trivial⟩
  intro entry mem
  rw [List.mem_singleton.mp mem]
  rfl

theorem written_ledger_reverifies_mount :
    ∃ row ledger, Rooted.fresh.run [.append "mount" mountData] = some ([row], ledger) ∧
      Reverifies [row] ledger := by
  rcases exists_run_append Rooted.fresh "mount" payload_mountData with ⟨row, ledger, data, ran⟩
  refine ⟨row, ledger, ran, (written_ledger_reverifies _ _ _ ran).1 ?_⟩
  intro other member
  rw [List.mem_singleton.mp member, data]
  exact steady_mountData

/-- Two keys that are sorted as numbers, and as texts once they are read. -/
def noteData : Data := .dict [(.int 2, .null), (.int 10, .null)]

theorem normalize_noteData : noteData.normalize = some (.obj [("2", .null), ("10", .null)]) := rfl

theorem payload_noteData : noteData.payload = some "\x7b\"2\":null,\"10\":null\x7d" := by
  decide +kernel

theorem payload_reloaded_noteData :
    (Data.ofJson (rebuild gather (noteData.normalize.getD .null))).payload =
      some "\x7b\"10\":null,\"2\":null\x7d" := by
  decide +kernel

theorem sha_noteData_ne :
    sha "\x7b\"2\":null,\"10\":null\x7d" ≠ sha "\x7b\"10\":null,\"2\":null\x7d" := by
  decide +kernel

/-- A dict with the keys 2 and 10 is appended, loaded and does not verify. -/
theorem not_reverifies_noteData :
    ∃ row ledger, Rooted.fresh.run [.append "note" noteData] = some ([row], ledger) ∧
      ¬ Reverifies [row] ledger := by
  rcases exists_run_append Rooted.fresh "note" payload_noteData with ⟨row, ledger, data, ran⟩
  refine ⟨row, ledger, ran, ?_⟩
  rintro ⟨log, loaded, verified, _⟩
  have holds : Holds [row] ledger := holds_fresh.run ran
  rw [load_written holds.written, Option.some_inj] at loaded
  rw [← loaded] at verified
  rcases holds.linked.1 with ⟨payload, printed, named⟩
  rcases ((verify_eq_true_iff _).mp verified).1 with ⟨payload_, printed_, named_⟩
  rw [data, payload_noteData, Option.some_inj] at printed
  rw [Row.reloaded, data, payload_reloaded_noteData, Option.some_inj] at printed_
  apply sha_noteData_ne
  rw [printed, printed_, ← named_]
  exact named.symm

end

end Harness
end PhysicalHarness
