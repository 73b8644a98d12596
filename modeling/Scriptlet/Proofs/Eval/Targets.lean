import Scriptlet.Syntax.Node

/-! The names in a construct: those that it binds where it is evaluated, and all of them. -/

namespace Scriptlet

mutual

/--
The names that a construct assigns, counts with or gives to functions. What is inside a function
does not count: its body binds names in scopes of its own.
-/
def Node.targets : Node → List String
  | .int _ _ | .float _ _ | .text _ _ | .reference _ _ | .continuing _ | .breaking _ => []
  | .list _ items => Node.targetsOfAll items
  | .assign _ name value => name :: value.targets
  | .binary _ _ left right => left.targets ++ right.targets
  | .unary _ _ operand => operand.targets
  | .conditional _ choices => choices.targets
  | .forLoop _ name first bound step body _ =>
    name :: (first.targets ++ bound.targets ++ Node.targetsOfOption step ++ body.targets)
  | .whileLoop _ condition body _ => condition.targets ++ body.targets
  | .function _ name _ _ _ => name.toList
  | .call _ callee arguments => callee.targets ++ Node.targetsOfAll arguments
  | .sequence _ statements => Node.targetsOfAll statements
  | .returning _ value => Node.targetsOfOption value

/-- The names that constructs in a row bind. -/
def Node.targetsOfAll : List Node → List String
  | [] => []
  | node :: rest => node.targets ++ Node.targetsOfAll rest

/-- The names that a construct binds, if there is one. -/
def Node.targetsOfOption : Option Node → List String
  | none => []
  | some node => node.targets

/-- The names that conditions and bodies bind. -/
def Choices.targets : Choices → List String
  | .none => []
  | .otherwise body _ => body.targets
  | .test condition body _ rest => condition.targets ++ body.targets ++ rest.targets

end

mutual

/-- All names in a construct, also those inside of functions. -/
def Node.names : Node → List String
  | .int _ _ | .float _ _ | .text _ _ | .continuing _ | .breaking _ => []
  | .reference _ name => [name]
  | .list _ items => Node.namesOfAll items
  | .assign _ name value => name :: value.names
  | .binary _ _ left right => left.names ++ right.names
  | .unary _ _ operand => operand.names
  | .conditional _ choices => choices.names
  | .forLoop _ name first bound step body _ =>
    name :: (first.names ++ bound.names ++ Node.namesOfOption step ++ body.names)
  | .whileLoop _ condition body _ => condition.names ++ body.names
  | .function _ name parameters body _ => name.toList ++ parameters ++ body.names
  | .call _ callee arguments => callee.names ++ Node.namesOfAll arguments
  | .sequence _ statements => Node.namesOfAll statements
  | .returning _ value => Node.namesOfOption value

/-- The names in constructs in a row. -/
def Node.namesOfAll : List Node → List String
  | [] => []
  | node :: rest => node.names ++ Node.namesOfAll rest

/-- The names in a construct, if there is one. -/
def Node.namesOfOption : Option Node → List String
  | none => []
  | some node => node.names

/-- The names in conditions and bodies. -/
def Choices.names : Choices → List String
  | .none => []
  | .otherwise body _ => body.names
  | .test condition body _ rest => condition.names ++ body.names ++ rest.names

end

/-- Two rows in a row are among two others in a row when each of them is among the other one. -/
theorem append_subset_append {α : Type} {first others rest more : List α} (left : first ⊆ others)
    (right : rest ⊆ more) : first ++ rest ⊆ others ++ more :=
  List.append_subset.mpr
    ⟨List.subset_append_of_subset_left more left, List.subset_append_of_subset_right others right⟩

mutual

/-- What a construct binds is among its names. -/
theorem Node.targets_subset_names : ∀ node : Node, node.targets ⊆ node.names
  | .int _ _ | .float _ _ | .text _ _ | .reference _ _ | .continuing _ | .breaking _ =>
    List.nil_subset _
  | .list _ items => Node.targetsOfAll_subset_namesOfAll items
  | .assign _ name value => List.cons_subset_cons name value.targets_subset_names
  | .binary _ _ left right =>
    append_subset_append left.targets_subset_names right.targets_subset_names
  | .unary _ _ operand => operand.targets_subset_names
  | .conditional _ choices => choices.targets_subset_names
  | .forLoop _ name first bound step body _ =>
    List.cons_subset_cons name (append_subset_append (append_subset_append
      (append_subset_append first.targets_subset_names bound.targets_subset_names)
      (Node.targetsOfOption_subset_namesOfOption step)) body.targets_subset_names)
  | .whileLoop _ condition body _ =>
    append_subset_append condition.targets_subset_names body.targets_subset_names
  | .function _ _ parameters body _ => by
    -- Neither the parameters nor the body of a function are bound where it is made.
    simp [Node.targets, Node.names]
  | .call _ callee arguments =>
    append_subset_append callee.targets_subset_names
      (Node.targetsOfAll_subset_namesOfAll arguments)
  | .sequence _ statements => Node.targetsOfAll_subset_namesOfAll statements
  | .returning _ value => Node.targetsOfOption_subset_namesOfOption value

/-- The same for constructs in a row. -/
theorem Node.targetsOfAll_subset_namesOfAll :
    ∀ nodes : List Node, Node.targetsOfAll nodes ⊆ Node.namesOfAll nodes
  | [] => List.nil_subset _
  | node :: rest =>
    append_subset_append node.targets_subset_names (Node.targetsOfAll_subset_namesOfAll rest)

/-- The same for a construct that may be left out. -/
theorem Node.targetsOfOption_subset_namesOfOption :
    ∀ node : Option Node, Node.targetsOfOption node ⊆ Node.namesOfOption node
  | none => List.nil_subset _
  | some node => node.targets_subset_names

/-- The same for choices. -/
theorem Choices.targets_subset_names : ∀ choices : Choices, choices.targets ⊆ choices.names
  | .none => List.nil_subset _
  | .otherwise body _ => body.targets_subset_names
  | .test condition body _ rest =>
    append_subset_append
      (append_subset_append condition.targets_subset_names body.targets_subset_names)
      rest.targets_subset_names

end

end Scriptlet
