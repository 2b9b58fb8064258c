/-!
# Errors and task results

What the tasks of a node return and what the task that waits for one makes of it
(`src/utils.rs`, with the errors of `src/lib.rs`).
-/

namespace P2PRadio

/-! ## Errors -/

structure ErrorMessage where
  src : String
  error : String
  debug : Option String
  deriving DecidableEq, Repr

/-- `gst::FlowError` -/
inductive FlowError where
  | customError2
  | customError1
  | customError
  | notSupported
  | error
  | notNegotiated
  | eos
  | flushing
  | notLinked
  deriving DecidableEq, Repr

/-- An `anyhow::Error`, by what it is made from. -/
inductive AnyhowError where
  | stateChange
  | bool (message : String)
  | flow (err : FlowError)
  | bus (err : ErrorMessage)
  | msg (message : String)
  deriving DecidableEq, Repr

structure JoinError where
  reason : String
  deriving DecidableEq, Repr

/-- The errors a node's tasks return. -/
inductive AppError where
  | other (message : String)
  | taskPanicked (err : JoinError)
  | taskExited
  | anyhow (err : AnyhowError)
  deriving DecidableEq, Repr

/-! ## Task results -/

/-- `None` is a cancelled task.  `Infallible` has no values, so `Some` is an error. -/
abbrev TaskRet (ε : Type) := Option (Except ε Empty)

/-- `handle_to_main_handle`, with the conversion of the task's error. -/
def handleToMainHandle {ε : Type} (into : ε → AppError) :
    Except JoinError (TaskRet ε) → TaskRet AppError
  | .error err => some (.error (.taskPanicked err))
  | .ok none => none
  | .ok (some (.error err)) => some (.error (into err))
  | .ok (some (.ok e)) => e.elim

/-- `handle_loop_cannot_fail_handle`, which has no error to convert. -/
def handleLoopCannotFailHandle : Except JoinError (TaskRet Empty) → TaskRet AppError :=
  handleToMainHandle Empty.elim

end P2PRadio
