import HostSql.Script
import HostSql.Session.Step

/-!
# One result, coerced

What becomes of a value that a function sets as its result: the engine's text of it, its type
inside the engine, and what setting it returned.
-/

namespace HostSql

/-- What becomes of a result. -/
structure CoercionReport where
  result : Except Error (Option String)
  typeName : Except Error (Option String)
  returned : Except Error Value

namespace CoercionReport

/-- A closure that sets a result and fails if it is refused. -/
def setter (v : Value) : Callbacks :=
  .scalar fun _ => .setResult v fun answer =>
    .emit (.resultSet answer) (Program.orFail (fun _ => .finish .ok) answer)

/-- The name under which the closure is registered. -/
def functionName : String := "f"

/-- The single value of a query. -/
def singleValue : StepAnswer → Except Error (Option String)
  | .queried (.finished r) => .ok ((r.rows.head?).bind (·.head?)).join
  | .queried (.rejected e) | .queried (.failed e _) => .error e
  | _ => .ok none

/-- What a closure's setting of a result returned, among the events of a step. -/
def returnedIn (events : List Event) : Except Error Value :=
  (events.findSome? fun
    | .resultSet answer => some answer
    | _ => none).getD (.ok .null)

/-- The steps up to the two calls. -/
def preparation (type : Option ResultType) (v : Value) : List SessionStep :=
  [.openMemory "a", .register "a" functionName (-1) (setter v)]
    ++ (type.map (SessionStep.declare "a" functionName)).toList

/-- Lets a function of the given declared type, called with the given arguments, set a value. -/
def of (type : Option ResultType) (args : List Value) (v : Value) : CoercionReport :=
  let application := CallText.application functionName (args.map CallText.literal)
  let calls : List SessionStep :=
    [.query "a" ("SELECT " ++ application), .query "a" ("SELECT typeof(" ++ application ++ ")")]
  match (Session.runAll (preparation type v ++ calls)).reverse with
  | kind :: result :: _ =>
    ⟨singleValue result.answer, singleValue kind.answer, returnedIn result.events⟩
  | _ => ⟨.ok none, .ok none, .ok .null⟩

end CoercionReport

end HostSql
