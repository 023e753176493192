import TypeRecovery.Binary.Isa
import TypeRecovery.Binary.NodeId
import TypeRecovery.Constraint
import TypeRecovery.Text.Quoted

/-! Reasons for which type recovery stops. Data that is merely missing is passed over with a
notice instead. -/
namespace TypeRecovery

inductive Error where
  /-- An array or structure is reached by value, so no access path describes it. -/
  | byValueAggregate (kind : String) (type : NodeId)
  /-- No constraint describes a type of this kind. -/
  | undescribable (kind : String) (type : NodeId)
  | unsupportedArchitecture (isa : Isa)
  /-- A type table has no node for a concrete type of this kind. -/
  | unsupportedConcrete (kind : String)
  | unsizedType (type : NodeId)
  | danglingType (type : NodeId)
  | danglingConcrete (handle : Nat)
  | malformedConstraint (cause : ConstraintError)
  | malformedRow (relation : String) (row : List String)
  | engineNotFound (name : String)
  | toolFailed (tool status : String)
  | solverFailed (reason : String)
  | cannotDraw (root : String)
  /-- A file or process could not be used, for the reason the system gives. -/
  | system (reason : String)
deriving DecidableEq

def Error.message : Error → String
  | .byValueAggregate kind type => "unable to handle by-value " ++ kind ++ " type " ++ type.text
  | .undescribable kind type =>
    "unable to generate constraints for " ++ kind ++ " type " ++ type.text
  | .unsupportedArchitecture isa => "architecture " ++ isa.name ++ " is not supported"
  | .unsupportedConcrete kind => "failed to translate concrete type of kind `" ++ kind ++ "`"
  | .unsizedType type => "type " ++ type.text ++ " does not have a size"
  | .danglingType type => "type " ++ type.text ++ " not found in the type table"
  | .danglingConcrete handle => "concrete type t" ++ Nat.repr handle ++ " not found"
  | .malformedConstraint cause => cause.message
  | .malformedRow relation row =>
    "malformed row in relation `" ++ relation ++ "`: " ++ Text.quoteList row
  | .engineNotFound name => "failed to find `" ++ name ++ "` on PATH"
  | .toolFailed tool status => "`" ++ tool ++ "` failed with " ++ status
  | .solverFailed reason => "solver failed: " ++ reason
  | .cannotDraw root => "cannot draw sketch for `" ++ root ++ "`"
  | .system reason => reason

end TypeRecovery
