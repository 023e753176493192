import TypeRecovery.Concrete.Basic
import TypeRecovery.Error

/-! Notices: what was passed over or repaired on the way to a result. -/
namespace TypeRecovery

inductive Severity where
  | warning
  | error
deriving DecidableEq

inductive Notice where
  | fixedAtom (atom : TypeVar)
  | danglingConcrete (handle : Handle)
  | negativeOffset (field : TypeVar)
  | manyBlocks (address : Nat)
  | strayCall (source target : NodeId)
  | unknownFunction (function : NodeId)
  | malformedPrototype (function : String) (type : NodeId) (kind : String)
  | skippedPrototype (function : NodeId) (cause : Error)
  | foreignSealed (type : NodeId) (moduleName : String)
  | unmatchedType (about : TypeVar) (moduleName : String)
  | noRelation (relation : String)
  | badConstraint (function constraint : String)
  | replacedConstraints (function : String)
  | undrawn (about : TypeVar) (cause : Error)
  | noModules
deriving DecidableEq

namespace Notice

def severity : Notice → Severity
  | badConstraint _ _ => .error
  | _ => .warning

def message : Notice → String
  | fixedAtom _ => "Not registering lattice element as opaque"
  | danglingConcrete _ => "Dangling concrete type"
  | negativeOffset _ => "Skipping field at negative offset"
  | manyBlocks _ => "Multiple blocks at address"
  | strayCall _ _ => "Call edge outside of any known function"
  | unknownFunction _ => "Prototype for unknown function"
  | malformedPrototype _ _ _ => "Ignoring malformed prototype"
  | skippedPrototype _ _ => "Ignoring prototype"
  | foreignSealed _ _ => "Opaque type refers to a type outside of the module"
  | unmatchedType _ _ => "Failed to find function for inferred type"
  | noRelation _ => "No data for relation"
  | badConstraint _ _ => "Failed to parse constraint"
  | replacedConstraints _ =>
    "Ignoring generated constraints, type information is already populated"
  | undrawn _ _ => "Cannot draw sketch"
  | noModules => "No modules to infer types for"

def details : Notice → List (String × String)
  | fixedAtom atom => [("element", atom.text)]
  | danglingConcrete handle => [("idx", "t" ++ Nat.repr handle)]
  | negativeOffset field => [("field", field.text)]
  | manyBlocks address => [("addr", Text.hex8 address)]
  | strayCall source target => [("source", source.text), ("target", target.text)]
  | unknownFunction function => [("function", function.text)]
  | malformedPrototype function type kind =>
    [("function", function), ("type", type.text), ("kind", kind)]
  | skippedPrototype function cause => [("function", function.text), ("reason", cause.message)]
  | foreignSealed type moduleName => [("type", type.text), ("module", moduleName)]
  | unmatchedType about moduleName => [("dtv", about.text), ("module", moduleName)]
  | noRelation relation => [("relation", relation)]
  | badConstraint function constraint => [("function", function), ("constraint", constraint)]
  | replacedConstraints function => [("function", function)]
  | undrawn about cause => [("dtv", about.text), ("error", cause.message)]
  | noModules => []

end Notice
end TypeRecovery
