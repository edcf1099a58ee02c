import CrystalModel.Build.Error

/-! # Events of a pass

What a pass reports while it runs. -/
namespace CrystalModel

inductive Event where
  | start (stage : Stage)
  | finish (stage : Stage) (objects : Nat)
  | simulation (index : Nat)
  | note (issue : Issue)
deriving DecidableEq, Repr

namespace Event

def text : Event → String
  | start stage => "start " ++ stage.name
  | finish stage objects => "finish " ++ stage.name ++ s!" {objects}"
  | simulation index => s!"simulation {index}"
  | note issue => "message " ++ issue.text

end Event

/-- What a pass leaves behind whether it succeeds or not. -/
structure PassLog where
  events : List Event
  warnings : List Issue
deriving DecidableEq, Repr

def PassLog.empty : PassLog := ⟨[], []⟩

/-- A step of a pass: it may fail, and keeps its log in either case. -/
abbrev Pass (α : Type) := ExceptT BuildError (StateM PassLog) α

namespace Pass

def report (event : Event) : Pass Unit :=
  modify fun log => { log with events := log.events ++ [event] }

def warn (issues : List Issue) : Pass Unit :=
  modify fun log => ⟨log.events ++ issues.map .note, log.warnings ++ issues⟩

def stage {α : Type} (stage : Stage) (objects : α → Nat) (work : Pass α) : Pass α := do
  report (.start stage)
  let built ← work
  report (.finish stage (objects built))
  return built

end Pass

end CrystalModel
