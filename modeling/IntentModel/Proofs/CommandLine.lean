import IntentModel.CommandLine.Build
import IntentModel.Proofs.FileStore
import IntentModel.Proofs.Json

/-! # The files after a call

A call opens its output only when there is a model, so whatever goes wrong before that leaves the files
as they were, and an output that cannot be opened is spared as well (`FileStore.Spares`). From there on
two things can happen. A model without a part that stands against its written form is written whole; even then
the call fails if the path of the output cannot be printed. Any other model breaks off
(`Model.fault_toJson_eq_none_iff`): the old content is gone by then, and the output is left with the text
before the break.
-/

namespace IntentModel

namespace Request

variable {request : Request} {store : FileStore} {environment : Environment} {now : Moment}
  {model : Model}

/-- A builtin entry that contains itself is loaded and compiled. The call fails as the entry is written, and
leaves an output behind. -/
example :
    let corpus := Text.toUtf8 "builtin: [&x \x7bname: n, self: *x\x7d]\n"
    let store : FileStore := ⟨[[.char 'w']], [([[.char 'w'], "c.yml"], .file corpus)]⟩
    let ended := run ["c.yml", "-o", "m.json"] store [] default
    ended.outcome.exitStatus = 1 ∧ (ended.store.read (.ofText "m.json")).toOption.isSome := by
  decide +kernel

end Request

end IntentModel
