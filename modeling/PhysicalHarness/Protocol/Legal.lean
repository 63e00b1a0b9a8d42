import Mathlib.Logic.Relation
import PhysicalHarness.Lib.Fallible
import PhysicalHarness.Protocol.Graph

namespace PhysicalHarness
namespace Protocol

open Python Fallible

variable [Host]

/-!
# Legal(G)

`validate_graph` judges a graph before anything is dispatched: its arguments are
typed, explicit executors are bound, entities are grounded, every requirement
has a supporter that no clobbering node can threaten, and every task goal is
ensured by the task's own nodes and still holds when the task ends.

The checker raises where Python does (an unhashable label, a reference that does
not parse) and otherwise returns the list of all problems it found.
-/

/-- The memo table and the problems of the depth-first walk. -/
structure Walk where
  anc : Dict String (List String)
  problems : List String

def Walk.start : Walk := ⟨Dict.empty, []⟩

def Walk.report (walk : Walk) (problem : String) : Walk :=
  { walk with problems := walk.problems ++ [problem] }

def unknownAfter (nid a : String) : String :=
  "node " ++ Host.repr (.str nid) ++ ".after names unknown node " ++ Host.repr (.str a)

/-- The loop over a node's `after`, with `next` for the recursive call. -/
def visitAfter (nodes : Dict String Node) (next : String → Walk → Option (List String × Walk))
    (nid : String) : List String → List String → Walk → Option (List String × Walk)
  | [], out, memo => some (out, memo)
  | a :: rest, out, memo =>
      if a ∈ nodes.keys then
        match next a memo with
        | none => none
        | some (more, memo) => visitAfter nodes next nid rest (out ∪ [a] ∪ more) memo
      else visitAfter nodes next nid rest out (memo.report (unknownAfter nid a))

/-- The dependencies of an indexed node. -/
def afterOf (nodes : Dict String Node) (nid : String) : List String :=
  ((nodes.get? nid).map Node.after).getD []

/-- The inner function of `_ancestors`.  The recursion is bounded by the nodes
not yet on the path; `none` stands for a bound that was too small. -/
def walk (nodes : Dict String Node) : Nat → String → List String → Walk →
    Option (List String × Walk)
  | 0, _, _, _ => none
  | fuel + 1, nid, path, memo =>
      match memo.anc.get? nid with
      | some out => some (out, memo)
      | none =>
          if nid ∈ path then
            some ([], memo.report ("cycle through " ++ Host.repr (.str nid)))
          else
            match visitAfter nodes (fun a memo => walk nodes fuel a (path ++ [nid]) memo) nid
                (afterOf nodes nid) [] memo with
            | none => none
            | some (out, memo) => some (out, { memo with anc := memo.anc.set nid out })

/-- The outer loop of `_ancestors`, before the bound is discharged. -/
def walkAll (nodes : Dict String Node) : List String → Walk → Option Walk
  | [], memo => some memo
  | nid :: rest, memo =>
      match walk nodes (nodes.keys.length + 1) nid [] memo with
      | none => none
      | some (_, memo) => walkAll nodes rest memo

/-- `_ancestors`: transitive predecessors per node, and the problems met. -/
def ancestors (nodes : Dict String Node) : Walk :=
  (walkAll nodes nodes.keys Walk.start).getD Walk.start

/-! ## The checks -/

def indexNodes : List Node → Dict String Node → Dict String Node × List String
  | [], seen => (seen, [])
  | node :: rest, seen =>
      let (nodes, problems) := indexNodes rest (seen.set node.id node)
      (nodes, if node.id ∈ seen.keys then
          ("duplicate node id " ++ Host.repr (.str node.id)) :: problems
        else problems)

def findRecord (records : List (Json × SkillRecordV0)) (node : Node) :
    Except PyError (List (Node × SkillRecordV0) × List String) := do
  hashed node.skill
  match recordFor records node.skill with
  | some record => return ([(node, record)], [])
  | none => return ([], ["node " ++ Host.repr (.str node.id) ++ " names unknown skill " ++
      Host.repr node.skill])

structure Contract where
  requires : List String
  ensures : List String
  clobbers : List String

def contractOf (node : Node) (record : SkillRecordV0) : Except PyError Contract := do
  let requires ← record.requires.mapM (instantiate · node.args)
  let ensures ← record.ensures.mapM (instantiate · node.args)
  let clobbers ← record.clobbers.mapM (instantiate · node.args)
  return { requires, ensures, clobbers }

/-- A node with the record it resolved to and its instantiated contract. -/
structure Placed where
  node : Node
  record : SkillRecordV0
  contract : Contract

def Placed.id (placed : Placed) : String := placed.node.id

def place (pair : Node × SkillRecordV0) : Except PyError Placed := do
  let contract ← contractOf pair.1 pair.2
  return { node := pair.1, record := pair.2, contract }

/-- Typed: the task exists, the arguments are the schema's, of its types. -/
def typedProblems (tasks : List String) (pair : Node × SkillRecordV0) :
    Except PyError (List String) := do
  let (node, record) := pair
  let who := "node " ++ Host.repr (.str node.id)
  hashed node.task
  let unknownTask :=
    if tasks.any (fun id => node.task.eq (.str id)) then []
    else [who ++ " names unknown task " ++ Host.repr node.task]
  let schema := record.args
  let missing := sorted ((Assoc.keys schema).filter (fun name => name ∉ Assoc.keys node.args))
  let unknown := sorted ((Assoc.keys node.args).filter (fun name => name ∉ Assoc.keys schema))
  let shape :=
    if missing = [] ∧ unknown = [] then []
    else ["typed: " ++ who ++ " args missing " ++ reprNames missing ++ " unknown " ++
      reprNames unknown]
  let values := node.args.flatMap (fun arg =>
    match Assoc.get? schema arg.1 with
    | none => []
    | some declared =>
        match Assoc.get? types declared with
        | none => ["typed: record " ++ Host.repr record.id ++ " arg " ++
            Host.repr (.str arg.1) ++ " has unknown type " ++ Host.repr (.str declared)]
        | some type =>
            if type.admits arg.2 then []
            else ["typed: " ++ who ++ " arg " ++ Host.repr (.str arg.1) ++ " must be " ++
              declared ++ ", got " ++ className arg.2])
  return unknownTask ++ shape ++ values

def boundProblems (pair : Node × SkillRecordV0) : Except PyError (List String) := do
  let (node, record) := pair
  if node.executor.isNull then return []
  let keys ← executorsOf record
  hashed node.executor
  if keys.any (fun key => key.eq node.executor) then return []
  return ["bound: node " ++ Host.repr (.str node.id) ++ " names executor " ++
    Host.repr node.executor ++ "; record " ++ Host.repr record.id ++ " binds " ++
    reprNames (sorted (keys.filterMap Json.str?))]

section Support

variable (placed : List Placed) (anc : Dict String (List String))

/-- `a` strictly precedes `b`. -/
def before (a b : String) : Bool := ((anc.get? b).getD []).contains a

/-- The instantiated `ensures` of a node. -/
def ensuresOf (id : String) : List String :=
  ((placed.find? (fun other => other.id = id)).map (fun other => other.contract.ensures)).getD []

def producedArgs (p : String) : Except PyError (List String) := do
  let (_, args) ← parsePredRef (refOfStr p)
  return args

/-- Grounded: an entity argument names a known object or one that an ancestor's
effects mention. -/
def groundedProblems (objects : List String) (here : Placed) :
    Except PyError (List String) := do
  let produced ← collect (fun m =>
    collect producedArgs (ensuresOf placed m)) ((anc.get? here.id).getD [])
  return here.node.args.flatMap (fun arg =>
    if Assoc.get? here.record.args arg.1 = some "entity" ∧
        pyStr arg.2 ∉ objects ∧ pyStr arg.2 ∉ produced then
      ["grounded: node " ++ Host.repr (.str here.id) ++ " arg " ++ arg.1 ++ "=" ++
        Host.repr arg.2 ++ " is not in sigma0.objects nor produced by a predecessor"]
    else [])

/-- No node threatens `p` between its supporter `m` (`none` for the start) and
its consumer `n` (`none` for the end): a threat clobbers `p`, is neither of the
two, not before the supporter, not after the consumer and not excused by `ok`. -/
def unthreatened (p : String) (m n : Option String) (ok : String → Bool) : Bool :=
  placed.all (fun c =>
    !c.contract.clobbers.contains p || decide (m = some c.id) || decide (n = some c.id) ||
      ok c.id || m.any (fun m => before anc c.id m) || n.any (fun n => before anc n c.id))

def supportedProblems (facts : List String) (here : Placed) : List String :=
  here.contract.requires.flatMap (fun p =>
    let who := "supported: node " ++ Host.repr (.str here.id) ++ " requires " ++ p
    let supporters := (if p ∈ facts then [none] else []) ++
      (((anc.get? here.id).getD []).filter (fun m => p ∈ ensuresOf placed m)).map some
    if supporters = [] then [who ++ " which nothing provides"]
    else if supporters.any (fun m =>
        unthreatened placed anc p m (some here.id) (fun _ => false)) then []
    else [who ++ " but every supporter is threatened by a clobber"])

def members (task : Task) : List String :=
  (placed.filter (fun other => other.node.task.eq (.str task.id))).map Placed.id

/-- Covered: every goal of a task is ensured by one of its nodes and not
clobbered before the task ends. -/
def coveredProblems (task : Task) : List String :=
  let group := members placed task
  let afterTask := fun c => group.all (fun m => before anc m c)
  task.goal.flatMap (fun p =>
    let who := "covered: task " ++ Host.repr (.str task.id) ++ " goal " ++ p
    let supporters := group.filter (fun m => p ∈ ensuresOf placed m)
    if supporters = [] then [who ++ " is ensured by none of its nodes"]
    else if supporters.any (fun m => unthreatened placed anc p (some m) none afterTask) then []
    else [who ++ " is clobbered before task end"])

end Support

/-- `validate_graph`: whether the graph is legal, and every problem found. -/
def validateGraph (graph : ExecutionGraph) (records : List (Json × SkillRecordV0))
    (facts : List PredRef) (objects : List String) : Except PyError (Bool × List String) := do
  let (nodes, duplicates) := indexNodes graph.nodes Dict.empty
  let found ← graph.nodes.mapM (findRecord records)
  let facts ← facts.mapM predRefStr
  let memo := ancestors nodes
  let problems := duplicates ++ (found.map Prod.snd).flatten ++ memo.problems
  if problems ≠ [] then return (false, problems)
  let pairs := (found.map Prod.fst).flatten
  let typed ← collect (typedProblems (graph.tasks.map Task.id)) pairs
  let bound ← collect boundProblems pairs
  let placed ← pairs.mapM place
  let grounded ← collect (groundedProblems placed memo.anc objects) placed
  let supported := placed.flatMap (supportedProblems placed memo.anc facts)
  let covered := graph.tasks.flatMap (coveredProblems placed memo.anc)
  let problems := typed ++ bound ++ grounded ++ supported ++ covered
  return (problems.isEmpty, problems)

end Protocol
end PhysicalHarness
