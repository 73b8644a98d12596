import Scriptlet.EvalError

/-! Constructs inside of constructs: what is evaluated together, and which signals leave a body. -/

namespace Scriptlet

mutual

/--
A construct and those inside of it, in the order of the source. The bodies of loops and of functions
are only looked into if that is asked for.
-/
def Node.constructs (loops functions : Bool) : Node → List Node
  | .int span value => [.int span value]
  | .float span value => [.float span value]
  | .text span value => [.text span value]
  | .reference span name => [.reference span name]
  | .continuing span => [.continuing span]
  | .breaking span => [.breaking span]
  | .list span items => .list span items :: Node.constructsOfAll loops functions items
  | .assign span name value => .assign span name value :: value.constructs loops functions
  | .binary span operator left right =>
    .binary span operator left right ::
      (left.constructs loops functions ++ right.constructs loops functions)
  | .unary span operator operand =>
    .unary span operator operand :: operand.constructs loops functions
  | .conditional span choices => .conditional span choices :: choices.constructs loops functions
  | .forLoop span name first bound step body form =>
    .forLoop span name first bound step body form ::
      (first.constructs loops functions ++ bound.constructs loops functions ++
        Node.constructsOfOption loops functions step ++
        if loops then body.constructs loops functions else [])
  | .whileLoop span condition body form =>
    .whileLoop span condition body form ::
      (condition.constructs loops functions ++
        if loops then body.constructs loops functions else [])
  | .function span name parameters body form =>
    .function span name parameters body form ::
      if functions then body.constructs loops functions else []
  | .call span callee arguments =>
    .call span callee arguments ::
      (callee.constructs loops functions ++ Node.constructsOfAll loops functions arguments)
  | .sequence span statements =>
    .sequence span statements :: Node.constructsOfAll loops functions statements
  | .returning span value =>
    .returning span value :: Node.constructsOfOption loops functions value

/-- Constructs in a row and those inside of them. -/
def Node.constructsOfAll (loops functions : Bool) : List Node → List Node
  | [] => []
  | node :: rest =>
    node.constructs loops functions ++ Node.constructsOfAll loops functions rest

/-- A construct and those inside of it, if there is one. -/
def Node.constructsOfOption (loops functions : Bool) : Option Node → List Node
  | none => []
  | some node => node.constructs loops functions

/-- The constructs of conditions and bodies. -/
def Choices.constructs (loops functions : Bool) : Choices → List Node
  | .none => []
  | .otherwise body _ => body.constructs loops functions
  | .test condition body _ rest =>
    condition.constructs loops functions ++ body.constructs loops functions ++
      rest.constructs loops functions

end

namespace Node

/-- All constructs that a text is made of, those in functions as well. -/
def all (node : Node) : List Node :=
  node.constructs true true

/-- The constructs that are evaluated where a construct is: what is in functions waits for a call. -/
def own (node : Node) : List Node :=
  node.constructs true false

/-- The constructs whose signals leave a construct: no loop around them takes the signal. -/
def exposed (node : Node) : List Node :=
  node.constructs false false

/-- The range of a construct that only raises a signal for loops. -/
def raises? (signal : LoopSignal) : Node → Option Span
  | .breaking span => if signal = .breaking then some span else none
  | .continuing span => if signal = .continuing then some span else none
  | _ => none

/-- The ranges at which a construct raises a signal that no loop in it takes. -/
def loose (signal : LoopSignal) (node : Node) : List Span :=
  node.exposed.filterMap (raises? signal)

variable {loops functions : Bool}

/-- A construct comes first among those that it is made of. -/
@[simp] theorem mem_constructs_self (node : Node) : node ∈ node.constructs loops functions := by
  -- One case for each kind of construct.
  cases node <;> simp [constructs]

/-- Constructs in a row are among those that the row is made of. -/
theorem mem_constructsOfAll {nodes : List Node} {node : Node} (member : node ∈ nodes) :
    node ∈ constructsOfAll loops functions nodes := by
  -- The induction goes along the row.
  induction nodes with
  | nil => simp at member
  | cons first rest ih =>
    rw [constructsOfAll, List.mem_append]
    rcases List.mem_cons.mp member with rfl | behind
    · exact .inl node.mem_constructs_self
    · exact .inr (ih behind)

/-- A row of constructs that leaves out nothing of what is inside of them. -/
def Closed (loops functions : Bool) (row : List Node) : Prop :=
  ∀ inner ∈ row, inner.constructs loops functions ⊆ row

namespace Closed

variable {row row' : List Node}

/-- A row without constructs leaves out nothing. -/
theorem nil : Closed loops functions [] :=
  nofun

/-- Two rows that leave out nothing do so together. -/
theorem append (first : Closed loops functions row) (second : Closed loops functions row') :
    Closed loops functions (row ++ row') := by
  intro inner member part inside
  rcases List.mem_append.mp member with front | rear
  · exact List.mem_append_left row' (first inner front inside)
  · exact List.mem_append_right row (second inner rear inside)

/-- A row that is only there on a condition leaves out nothing. -/
theorem ifAsked (asked : Bool) (closed : Closed loops functions row) :
    Closed loops functions (if asked then row else []) := by
  cases asked with
  | false => exact nil
  | true => exact closed

/-- A construct with the rows inside of it leaves out nothing. -/
theorem around {node : Node} (whole : node.constructs loops functions = node :: row)
    (closed : Closed loops functions row) : Closed loops functions (node :: row) := by
  intro inner member
  rcases List.mem_cons.mp member with rfl | inside
  · exact fun part inside => whole ▸ inside
  · exact List.subset_cons_of_subset node (closed inner inside)

end Closed

end Node

mutual

/-- What is inside of a construct is inside of it with all that is inside of that. -/
theorem Node.closed_constructs (loops functions : Bool) :
    ∀ node : Node, Node.Closed loops functions (node.constructs loops functions)
  | .int _ _ | .float _ _ | .text _ _ | .reference _ _ | .continuing _ | .breaking _ =>
    .around rfl .nil
  | .list _ items | .sequence _ items => .around rfl (Node.closed_constructsOfAll _ _ items)
  | .assign _ _ operand | .unary _ _ operand => .around rfl (operand.closed_constructs _ _)
  | .binary _ _ left right =>
    .around rfl ((left.closed_constructs _ _).append (right.closed_constructs _ _))
  | .conditional _ choices => .around rfl (choices.closed_constructs _ _)
  | .forLoop _ _ first bound step body _ =>
    .around rfl ((((first.closed_constructs _ _).append (bound.closed_constructs _ _)).append
      (Node.closed_constructsOfOption _ _ step)).append
        (.ifAsked loops (body.closed_constructs _ _)))
  | .whileLoop _ condition body _ =>
    .around rfl ((condition.closed_constructs _ _).append
      (.ifAsked loops (body.closed_constructs _ _)))
  | .function _ _ _ body _ => .around rfl (.ifAsked functions (body.closed_constructs _ _))
  | .call _ callee arguments =>
    .around rfl ((callee.closed_constructs _ _).append
      (Node.closed_constructsOfAll _ _ arguments))
  | .returning _ value => .around rfl (Node.closed_constructsOfOption _ _ value)

/-- What is inside of constructs in a row is so with all that is inside of that. -/
theorem Node.closed_constructsOfAll (loops functions : Bool) :
    ∀ nodes : List Node, Node.Closed loops functions (Node.constructsOfAll loops functions nodes)
  | [] => .nil
  | node :: rest => (node.closed_constructs _ _).append (Node.closed_constructsOfAll _ _ rest)

/-- What is inside of a construct that may be missing is so with all that is inside of that. -/
theorem Node.closed_constructsOfOption (loops functions : Bool) :
    ∀ node : Option Node,
      Node.Closed loops functions (Node.constructsOfOption loops functions node)
  | none => .nil
  | some node => node.closed_constructs _ _

/-- What is inside of conditions and bodies is so with all that is inside of that. -/
theorem Choices.closed_constructs (loops functions : Bool) :
    ∀ choices : Choices, Node.Closed loops functions (choices.constructs loops functions)
  | .none => .nil
  | .otherwise body _ => body.closed_constructs _ _
  | .test condition body _ rest =>
    ((condition.closed_constructs _ _).append (body.closed_constructs _ _)).append
      (rest.closed_constructs _ _)

end

/-- A row that is only there on a condition is part of a row that is there on a weaker one. -/
theorem sublist_ifAsked {asked asked' : Bool} {row row' : List Node} (more : asked ≤ asked')
    (part : row.Sublist row') :
    (if asked then row else []).Sublist (if asked' then row' else []) := by
  cases asked with
  | false => exact List.nil_sublist _
  | true => simpa [more rfl] using part

mutual

/-- Looking into more bodies shows more constructs. -/
theorem Node.constructs_sublist {loops functions loops' functions' : Bool}
    (more : loops ≤ loops') (others : functions ≤ functions') :
    ∀ node : Node,
      (node.constructs loops functions).Sublist (node.constructs loops' functions')
  | .int _ _ | .float _ _ | .text _ _ | .reference _ _ | .continuing _ | .breaking _ => .refl _
  | .list _ items | .sequence _ items =>
    .cons_cons _ (Node.constructsOfAll_sublist more others items)
  | .assign _ _ operand | .unary _ _ operand => .cons_cons _ (operand.constructs_sublist more others)
  | .binary _ _ left right =>
    .cons_cons _ ((left.constructs_sublist more others).append
      (right.constructs_sublist more others))
  | .conditional _ choices => .cons_cons _ (choices.constructs_sublist more others)
  | .forLoop _ _ first bound step body _ =>
    .cons_cons _ ((((first.constructs_sublist more others).append
      (bound.constructs_sublist more others)).append
        (Node.constructsOfOption_sublist more others step)).append
          (sublist_ifAsked more (body.constructs_sublist more others)))
  | .whileLoop _ condition body _ =>
    .cons_cons _ ((condition.constructs_sublist more others).append
      (sublist_ifAsked more (body.constructs_sublist more others)))
  | .function _ _ _ body _ =>
    .cons_cons _ (sublist_ifAsked others (body.constructs_sublist more others))
  | .call _ callee arguments =>
    .cons_cons _ ((callee.constructs_sublist more others).append
      (Node.constructsOfAll_sublist more others arguments))
  | .returning _ value => .cons_cons _ (Node.constructsOfOption_sublist more others value)

/-- Looking into more bodies shows more constructs of a row. -/
theorem Node.constructsOfAll_sublist {loops functions loops' functions' : Bool}
    (more : loops ≤ loops') (others : functions ≤ functions') :
    ∀ nodes : List Node, (Node.constructsOfAll loops functions nodes).Sublist
      (Node.constructsOfAll loops' functions' nodes)
  | [] => .slnil
  | node :: rest =>
    (node.constructs_sublist more others).append (Node.constructsOfAll_sublist more others rest)

/-- Looking into more bodies shows more constructs of one that may be missing. -/
theorem Node.constructsOfOption_sublist {loops functions loops' functions' : Bool}
    (more : loops ≤ loops') (others : functions ≤ functions') :
    ∀ node : Option Node, (Node.constructsOfOption loops functions node).Sublist
      (Node.constructsOfOption loops' functions' node)
  | none => .slnil
  | some node => node.constructs_sublist more others

/-- Looking into more bodies shows more constructs of conditions and bodies. -/
theorem Choices.constructs_sublist {loops functions loops' functions' : Bool}
    (more : loops ≤ loops') (others : functions ≤ functions') :
    ∀ choices : Choices,
      (choices.constructs loops functions).Sublist (choices.constructs loops' functions')
  | .none => .slnil
  | .otherwise body _ => body.constructs_sublist more others
  | .test condition body _ rest =>
    ((condition.constructs_sublist more others).append
      (body.constructs_sublist more others)).append (rest.constructs_sublist more others)

end

namespace Node

variable {node inner part : Node} {signal : LoopSignal} {site : Span}

/-- A construct is evaluated where it is. -/
@[simp] theorem mem_own_self (node : Node) : node ∈ node.own :=
  node.mem_constructs_self

/-- What is evaluated together with a part of a construct is evaluated together with it. -/
theorem mem_own_trans (outer : inner ∈ node.own) (nested : part ∈ inner.own) : part ∈ node.own :=
  node.closed_constructs true false inner outer nested

/-- What is part of a part of a text is part of the text. -/
theorem mem_all_trans (outer : inner ∈ node.all) (nested : part ∈ inner.all) : part ∈ node.all :=
  node.closed_constructs true true inner outer nested

/-- What is evaluated together with a construct is part of its text. -/
theorem mem_all_of_mem_own (inside : part ∈ node.own) : part ∈ node.all :=
  (node.constructs_sublist (Bool.le_refl true) (Bool.false_le true)).subset inside

/-- What lets signals out of a construct is evaluated together with it. -/
theorem mem_own_of_mem_exposed (inside : part ∈ node.exposed) : part ∈ node.own :=
  (node.constructs_sublist (Bool.false_le true) (Bool.le_refl false)).subset inside

/-- The body of a function is part of every text that the function is part of. -/
theorem body_mem_all {span : Span} {name : Option String} {parameters : List String} {body : Node}
    {form : BodyForm} (inside : .function span name parameters body form ∈ node.all) :
    body ∈ node.all := by
  apply mem_all_trans inside
  simp [all, constructs]

/-- A signal that leaves an exposed part of a construct leaves the construct. -/
theorem loose_subset (inside : part ∈ node.exposed) : part.loose signal ⊆ node.loose signal :=
  List.filterMap_subset (raises? signal) (node.closed_constructs false false part inside)

/-- A signal that leaves a construct is raised by one that is evaluated together with it. -/
theorem exists_of_mem_loose (loose : site ∈ node.loose signal) :
    ∃ part ∈ node.own, part.span = site := by
  obtain ⟨part, inside, raised⟩ := List.mem_filterMap.mp loose
  refine ⟨part, mem_own_of_mem_exposed inside, ?_⟩
  -- Only words that raise a signal have a range here, and it is their own.
  cases part <;> simp_all [raises?, span]

end Node

end Scriptlet
