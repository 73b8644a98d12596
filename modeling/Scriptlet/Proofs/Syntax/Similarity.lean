import Scriptlet.Syntax.Rule
import Mathlib.Data.List.Forall2

/-! Tokens and syntax trees that differ in their ranges only. -/

namespace Scriptlet

/-- Two tokens of one kind, with ranges in a relation. -/
def Token.Similar (spans : Span → Span → Prop) (left right : Token) : Prop :=
  left.kind = right.kind ∧ spans left.span right.span

mutual

/-- Two constructs that are built alike, with ranges in a relation wherever they have one. -/
inductive Node.Similar (spans : Span → Span → Prop) : Node → Node → Prop where
  | int {span span' : Span} {value : Int64} (ranges : spans span span') :
    Node.Similar spans (.int span value) (.int span' value)
  | float {span span' : Span} {value : Float} (ranges : spans span span') :
    Node.Similar spans (.float span value) (.float span' value)
  | text {span span' : Span} {value : String} (ranges : spans span span') :
    Node.Similar spans (.text span value) (.text span' value)
  | list {span span' : Span} {items items' : List Node} (ranges : spans span span')
    (alike : List.Forall₂ (Node.Similar spans) items items') :
    Node.Similar spans (.list span items) (.list span' items')
  | reference {span span' : Span} {name : String} (ranges : spans span span') :
    Node.Similar spans (.reference span name) (.reference span' name)
  | assign {span span' : Span} {name : String} {value value' : Node} (ranges : spans span span')
    (alike : Node.Similar spans value value') :
    Node.Similar spans (.assign span name value) (.assign span' name value')
  | binary {span span' : Span} {operator : BinaryOperator} {left left' right right' : Node}
    (ranges : spans span span') (lefts : Node.Similar spans left left')
    (rights : Node.Similar spans right right') :
    Node.Similar spans (.binary span operator left right) (.binary span' operator left' right')
  | unary {span span' : Span} {operator : UnaryOperator} {operand operand' : Node}
    (ranges : spans span span') (alike : Node.Similar spans operand operand') :
    Node.Similar spans (.unary span operator operand) (.unary span' operator operand')
  | conditional {span span' : Span} {choices choices' : Choices} (ranges : spans span span')
    (alike : Choices.Similar spans choices choices') :
    Node.Similar spans (.conditional span choices) (.conditional span' choices')
  | forLoop {span span' : Span} {name : String} {first first' bound bound' : Node}
    {step step' : Option Node} {body body' : Node} {form : BodyForm} (ranges : spans span span')
    (firsts : Node.Similar spans first first') (bounds : Node.Similar spans bound bound')
    (steps : Option.Rel (Node.Similar spans) step step')
    (bodies : Node.Similar spans body body') :
    Node.Similar spans (.forLoop span name first bound step body form)
      (.forLoop span' name first' bound' step' body' form)
  | whileLoop {span span' : Span} {condition condition' body body' : Node} {form : BodyForm}
    (ranges : spans span span') (conditions : Node.Similar spans condition condition')
    (bodies : Node.Similar spans body body') :
    Node.Similar spans (.whileLoop span condition body form)
      (.whileLoop span' condition' body' form)
  | function {span span' : Span} {name : Option String} {parameters : List String}
    {body body' : Node} {form : BodyForm} (ranges : spans span span')
    (bodies : Node.Similar spans body body') :
    Node.Similar spans (.function span name parameters body form)
      (.function span' name parameters body' form)
  | call {span span' : Span} {callee callee' : Node} {arguments arguments' : List Node}
    (ranges : spans span span') (callees : Node.Similar spans callee callee')
    (alike : List.Forall₂ (Node.Similar spans) arguments arguments') :
    Node.Similar spans (.call span callee arguments) (.call span' callee' arguments')
  | sequence {span span' : Span} {statements statements' : List Node} (ranges : spans span span')
    (alike : List.Forall₂ (Node.Similar spans) statements statements') :
    Node.Similar spans (.sequence span statements) (.sequence span' statements')
  | returning {span span' : Span} {value value' : Option Node} (ranges : spans span span')
    (alike : Option.Rel (Node.Similar spans) value value') :
    Node.Similar spans (.returning span value) (.returning span' value')
  | continuing {span span' : Span} (ranges : spans span span') :
    Node.Similar spans (.continuing span) (.continuing span')
  | breaking {span span' : Span} (ranges : spans span span') :
    Node.Similar spans (.breaking span) (.breaking span')

/-- Two lists of choices that are built alike. -/
inductive Choices.Similar (spans : Span → Span → Prop) : Choices → Choices → Prop where
  | none : Choices.Similar spans .none .none
  | otherwise {body body' : Node} {form : BodyForm} (bodies : Node.Similar spans body body') :
    Choices.Similar spans (.otherwise body form) (.otherwise body' form)
  | test {condition condition' body body' : Node} {form : BodyForm} {rest rest' : Choices}
    (conditions : Node.Similar spans condition condition')
    (bodies : Node.Similar spans body body') (alike : Choices.Similar spans rest rest') :
    Choices.Similar spans (.test condition body form rest) (.test condition' body' form rest')

end

variable {spans : Span → Span → Prop}

/-- Constructs that are built alike have ranges in the relation. -/
theorem Node.Similar.span {left right : Node} (alike : left.Similar spans right) :
    spans left.span right.span := by
  -- Every constructor of the relation asks for it.
  cases alike <;> assumption

/-- The last bodies of choices that are built alike have ranges in the relation. -/
theorem Choices.Similar.lastBody? : ∀ {left right : Choices}, left.Similar spans right →
    Option.Rel spans left.lastBody? right.lastBody?
  | _, _, .none => .none
  | _, _, .otherwise bodies => .some bodies.span
  | .test _ _ _ rest, .test _ _ _ rest', .test _ bodies alike => by
    -- The last body of a test is the one after it, if there is one.
    have last := Choices.Similar.lastBody? alike
    simp only [Choices.lastBody?]
    generalize rest.lastBody? = found, rest'.lastBody? = found' at last
    cases last with
    | none => exact .some bodies.span
    | some ranges => exact .some ranges

mutual

/-- A relation that every range has to itself makes every construct similar to itself. -/
theorem Node.Similar.refl (same : ∀ span, spans span span) :
    ∀ node : Node, node.Similar spans node
  | .int _ _ => .int (same _)
  | .float _ _ => .float (same _)
  | .text _ _ => .text (same _)
  | .list _ items => .list (same _) (Node.Similar.refl_list same items)
  | .reference _ _ => .reference (same _)
  | .assign _ _ value => .assign (same _) (Node.Similar.refl same value)
  | .binary _ _ left right =>
    .binary (same _) (Node.Similar.refl same left) (Node.Similar.refl same right)
  | .unary _ _ operand => .unary (same _) (Node.Similar.refl same operand)
  | .conditional _ choices => .conditional (same _) (Choices.Similar.refl same choices)
  | .forLoop _ _ first bound step body _ =>
    .forLoop (same _) (Node.Similar.refl same first) (Node.Similar.refl same bound)
      (Node.Similar.refl_option same step) (Node.Similar.refl same body)
  | .whileLoop _ condition body _ =>
    .whileLoop (same _) (Node.Similar.refl same condition) (Node.Similar.refl same body)
  | .function _ _ _ body _ => .function (same _) (Node.Similar.refl same body)
  | .call _ callee arguments =>
    .call (same _) (Node.Similar.refl same callee) (Node.Similar.refl_list same arguments)
  | .sequence _ statements => .sequence (same _) (Node.Similar.refl_list same statements)
  | .returning _ value => .returning (same _) (Node.Similar.refl_option same value)
  | .continuing _ => .continuing (same _)
  | .breaking _ => .breaking (same _)

/-- The same for constructs in a row. -/
theorem Node.Similar.refl_list (same : ∀ span, spans span span) :
    ∀ nodes : List Node, List.Forall₂ (Node.Similar spans) nodes nodes
  | [] => .nil
  | node :: rest => .cons (Node.Similar.refl same node) (Node.Similar.refl_list same rest)

/-- The same for a construct that may be left out. -/
theorem Node.Similar.refl_option (same : ∀ span, spans span span) :
    ∀ node : Option Node, Option.Rel (Node.Similar spans) node node
  | none => .none
  | some node => .some (Node.Similar.refl same node)

/-- The same for choices. -/
theorem Choices.Similar.refl (same : ∀ span, spans span span) :
    ∀ choices : Choices, choices.Similar spans choices
  | .none => .none
  | .otherwise body _ => .otherwise (Node.Similar.refl same body)
  | .test condition body _ rest =>
    .test (Node.Similar.refl same condition) (Node.Similar.refl same body)
      (Choices.Similar.refl same rest)

end

section Join

variable {first second both : Span → Span → Prop}

mutual

/-- Constructs that are built like a third one are built alike, as far as their ranges go. -/
theorem Node.Similar.join
    (compose : ∀ span left right, first span left → second span right → both left right) :
    ∀ node left right : Node, node.Similar first left → node.Similar second right →
      left.Similar both right
  | .int _ _, _, _, .int one, .int other => .int (compose _ _ _ one other)
  | .float _ _, _, _, .float one, .float other => .float (compose _ _ _ one other)
  | .text _ _, _, _, .text one, .text other => .text (compose _ _ _ one other)
  | .list _ items, _, _, .list one ones, .list other others =>
    .list (compose _ _ _ one other) (Node.Similar.join_list compose items _ _ ones others)
  | .reference _ _, _, _, .reference one, .reference other =>
    .reference (compose _ _ _ one other)
  | .assign _ _ value, _, _, .assign one ones, .assign other others =>
    .assign (compose _ _ _ one other) (Node.Similar.join compose value _ _ ones others)
  | .binary _ _ left right, _, _, .binary one lefts rights, .binary other lefts' rights' =>
    .binary (compose _ _ _ one other) (Node.Similar.join compose left _ _ lefts lefts')
      (Node.Similar.join compose right _ _ rights rights')
  | .unary _ _ operand, _, _, .unary one ones, .unary other others =>
    .unary (compose _ _ _ one other) (Node.Similar.join compose operand _ _ ones others)
  | .conditional _ choices, _, _, .conditional one ones, .conditional other others =>
    .conditional (compose _ _ _ one other) (Choices.Similar.join compose choices _ _ ones others)
  | .forLoop _ _ first bound step body _, _, _, .forLoop one firsts bounds steps bodies,
      .forLoop other firsts' bounds' steps' bodies' =>
    .forLoop (compose _ _ _ one other) (Node.Similar.join compose first _ _ firsts firsts')
      (Node.Similar.join compose bound _ _ bounds bounds')
      (Node.Similar.join_option compose step _ _ steps steps')
      (Node.Similar.join compose body _ _ bodies bodies')
  | .whileLoop _ condition body _, _, _, .whileLoop one conditions bodies,
      .whileLoop other conditions' bodies' =>
    .whileLoop (compose _ _ _ one other)
      (Node.Similar.join compose condition _ _ conditions conditions')
      (Node.Similar.join compose body _ _ bodies bodies')
  | .function _ _ _ body _, _, _, .function one ones, .function other others =>
    .function (compose _ _ _ one other) (Node.Similar.join compose body _ _ ones others)
  | .call _ callee arguments, _, _, .call one callees ones, .call other callees' others =>
    .call (compose _ _ _ one other) (Node.Similar.join compose callee _ _ callees callees')
      (Node.Similar.join_list compose arguments _ _ ones others)
  | .sequence _ statements, _, _, .sequence one ones, .sequence other others =>
    .sequence (compose _ _ _ one other) (Node.Similar.join_list compose statements _ _ ones others)
  | .returning _ value, _, _, .returning one ones, .returning other others =>
    .returning (compose _ _ _ one other) (Node.Similar.join_option compose value _ _ ones others)
  | .continuing _, _, _, .continuing one, .continuing other =>
    .continuing (compose _ _ _ one other)
  | .breaking _, _, _, .breaking one, .breaking other => .breaking (compose _ _ _ one other)

/-- The same for constructs in a row. -/
theorem Node.Similar.join_list
    (compose : ∀ span left right, first span left → second span right → both left right) :
    ∀ nodes lefts rights : List Node, List.Forall₂ (Node.Similar first) nodes lefts →
      List.Forall₂ (Node.Similar second) nodes rights →
      List.Forall₂ (Node.Similar both) lefts rights
  | [], _, _, .nil, .nil => .nil
  | node :: rest, _, _, .cons one ones, .cons other others =>
    .cons (Node.Similar.join compose node _ _ one other)
      (Node.Similar.join_list compose rest _ _ ones others)

/-- The same for a construct that may be left out. -/
theorem Node.Similar.join_option
    (compose : ∀ span left right, first span left → second span right → both left right) :
    ∀ node left right : Option Node, Option.Rel (Node.Similar first) node left →
      Option.Rel (Node.Similar second) node right → Option.Rel (Node.Similar both) left right
  | none, _, _, .none, .none => .none
  | some node, _, _, .some one, .some other => .some (Node.Similar.join compose node _ _ one other)

/-- The same for choices. -/
theorem Choices.Similar.join
    (compose : ∀ span left right, first span left → second span right → both left right) :
    ∀ choices left right : Choices, choices.Similar first left → choices.Similar second right →
      left.Similar both right
  | .none, _, _, .none, .none => .none
  | .otherwise body _, _, _, .otherwise one, .otherwise other =>
    .otherwise (Node.Similar.join compose body _ _ one other)
  | .test condition body _ rest, _, _, .test conditions one ones, .test conditions' other others =>
    .test (Node.Similar.join compose condition _ _ conditions conditions')
      (Node.Similar.join compose body _ _ one other)
      (Choices.Similar.join compose rest _ _ ones others)

end

end Join

/-- Constructs in a row with ranges in a relation have them in every weaker one. -/
theorem Node.Similar.mono_list {weaker : Span → Span → Prop}
    (weaken : ∀ span span', spans span span' → weaker span span') (left right : List Node)
    (alike : List.Forall₂ (Node.Similar spans) left right) :
    List.Forall₂ (Node.Similar weaker) left right :=
  Node.Similar.join_list (by rintro _ _ right rfl ranges; exact weaken _ _ ranges) left left right
    (Node.Similar.refl_list (fun _ => rfl) left) alike

mutual

/-- Constructs that are built alike and have the same ranges are the same. -/
theorem Node.Similar.eq :
    ∀ (left right : Node), left.Similar (· = ·) right → left = right
  | .int _ _, _, .int rfl => rfl
  | .float _ _, _, .float rfl => rfl
  | .text _ _, _, .text rfl => rfl
  | .list _ items, _, .list rfl alike => by rw [Node.Similar.eq_list items _ alike]
  | .reference _ _, _, .reference rfl => rfl
  | .assign _ _ value, _, .assign rfl alike => by rw [Node.Similar.eq value _ alike]
  | .binary _ _ left right, _, .binary rfl lefts rights => by
    rw [Node.Similar.eq left _ lefts, Node.Similar.eq right _ rights]
  | .unary _ _ operand, _, .unary rfl alike => by rw [Node.Similar.eq operand _ alike]
  | .conditional _ choices, _, .conditional rfl alike => by
    rw [Choices.Similar.eq choices _ alike]
  | .forLoop _ _ first bound step body _, _, .forLoop rfl firsts bounds steps bodies => by
    rw [Node.Similar.eq first _ firsts, Node.Similar.eq bound _ bounds,
      Node.Similar.eq_option step _ steps, Node.Similar.eq body _ bodies]
  | .whileLoop _ condition body _, _, .whileLoop rfl conditions bodies => by
    rw [Node.Similar.eq condition _ conditions, Node.Similar.eq body _ bodies]
  | .function _ _ _ body _, _, .function rfl bodies => by rw [Node.Similar.eq body _ bodies]
  | .call _ callee arguments, _, .call rfl callees alike => by
    rw [Node.Similar.eq callee _ callees, Node.Similar.eq_list arguments _ alike]
  | .sequence _ statements, _, .sequence rfl alike => by
    rw [Node.Similar.eq_list statements _ alike]
  | .returning _ value, _, .returning rfl alike => by rw [Node.Similar.eq_option value _ alike]
  | .continuing _, _, .continuing rfl => rfl
  | .breaking _, _, .breaking rfl => rfl

/-- The same for constructs in a row. -/
theorem Node.Similar.eq_list :
    ∀ (left right : List Node), List.Forall₂ (Node.Similar (· = ·)) left right → left = right
  | [], _, .nil => rfl
  | node :: rest, _, .cons alike more => by
    rw [Node.Similar.eq node _ alike, Node.Similar.eq_list rest _ more]

/-- The same for a construct that may be left out. -/
theorem Node.Similar.eq_option :
    ∀ (left right : Option Node), Option.Rel (Node.Similar (· = ·)) left right → left = right
  | none, _, .none => rfl
  | some node, _, .some alike => by rw [Node.Similar.eq node _ alike]

/-- The same for choices. -/
theorem Choices.Similar.eq :
    ∀ (left right : Choices), left.Similar (· = ·) right → left = right
  | .none, _, .none => rfl
  | .otherwise body _, _, .otherwise bodies => by rw [Node.Similar.eq body _ bodies]
  | .test condition body _ rest, _, .test conditions bodies alike => by
    rw [Node.Similar.eq condition _ conditions, Node.Similar.eq body _ bodies,
      Choices.Similar.eq rest _ alike]

end

end Scriptlet
