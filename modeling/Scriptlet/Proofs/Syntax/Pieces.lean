import Scriptlet.Proofs.Syntax.Nesting
import Scriptlet.Proofs.Token.Partition

/-!
The ranges of constructs. A construct is read from pieces that follow one another in the text:
tokens of its own, and the constructs inside of it. It reaches from the first piece to the last.
-/

namespace Scriptlet

/-- The constructs right inside of conditions and bodies, in the order of the source. -/
def Choices.children : Choices → List Node
  | .none => []
  | .otherwise body _ => [body]
  | .test condition body _ rest => condition :: body :: rest.children

namespace Node

/-- The constructs right inside of a construct, in the order of the source. -/
def children : Node → List Node
  | .int _ _ | .float _ _ | .text _ _ | .reference _ _ | .continuing _ | .breaking _ => []
  | .list _ nodes | .sequence _ nodes => nodes
  | .assign _ _ operand | .unary _ _ operand => [operand]
  | .binary _ _ left right => [left, right]
  | .conditional _ choices => choices.children
  | .forLoop _ _ first bound step body _ => first :: bound :: (step.toList ++ [body])
  | .whileLoop _ condition body _ => [condition, body]
  | .function _ _ _ body _ => [body]
  | .call _ callee arguments => callee :: arguments
  | .returning _ value => value.toList

end Node

/-- A range that is cut from a source between the start of one token and the end of another. -/
structure Span.Cut (source : Source) (tokens : List Token) (span : Span) : Prop where
  origin : span.source = source
  start : ∃ token ∈ tokens, span.start = token.span.start
  stop : ∃ token ∈ tokens, span.stop = token.span.stop
  nonempty : span.start.index < span.stop.index

/-- A range is all before another one. -/
def Span.Before (first second : Span) : Prop :=
  first.stop.index ≤ second.start.index

/-- A range is a part of another one. -/
def Span.Within (inner outer : Span) : Prop :=
  outer.start.index ≤ inner.start.index ∧ inner.stop.index ≤ outer.stop.index

/--
A construct whose range is cut from the source, and is around those of the constructs right inside
of it, which follow one another.
-/
structure Node.WellSpanned (source : Source) (tokens : List Token) (node : Node) : Prop where
  cut : node.span.Cut source tokens
  inside : ∀ child ∈ node.children, child.span.Within node.span
  ordered : node.children.Pairwise fun first second => first.span.Before second.span

/-- What a construct is made of. -/
inductive Piece where
  | token (token : Token)
  | node (node : Node)

namespace Piece

/-- The range of a piece. -/
def span : Piece → Span
  | .token leaf => leaf.span
  | .node inner => inner.span

/-- The construct that a piece is, if it is one. -/
def node? : Piece → Option Node
  | .token _ => none
  | .node inner => some inner

@[simp] theorem node?_token (leaf : Token) : (Piece.token leaf).node? = none := rfl

@[simp] theorem node?_node (inner : Node) : (Piece.node inner).node? = some inner := rfl

@[simp] theorem node?_comp_node : node? ∘ Piece.node = some := rfl

end Piece

mutual

/-- Tokens that a construct is put together from: it is around the pieces among them. -/
inductive Node.Assembled : List Token → Node → Prop where
  | intro {row : List Token} {pieces : List Piece} {first last : Piece} {node : Node}
    (laid : Laid row pieces) (head : pieces.head? = some first) (tail : pieces.getLast? = some last)
    (range : node.span = first.span.through last.span)
    (inner : node.children = pieces.filterMap Piece.node?) : Node.Assembled row node

/-- Tokens that pieces are laid out in, one after another; some tokens have no part in any. -/
inductive Laid : List Token → List Piece → Prop where
  | nil : Laid [] []
  | skip {token : Token} {rest : List Token} {pieces : List Piece} (later : Laid rest pieces) :
    Laid (token :: rest) pieces
  | token {token : Token} {rest : List Token} {pieces : List Piece} (later : Laid rest pieces) :
    Laid (token :: rest) (.token token :: pieces)
  | node {row rest : List Token} {node : Node} {pieces : List Piece}
    (first : Node.Assembled row node) (later : Laid rest pieces) :
    Laid (row ++ rest) (.node node :: pieces)

end

namespace Laid

variable {row front rear : List Token} {node : Node} {pieces more : List Piece}

/-- Pieces behind other ones. -/
theorem append : ∀ {front : List Token} {pieces : List Piece}, Laid front pieces →
    Laid rear more → Laid (front ++ rear) (pieces ++ more)
  | _, _, .nil, later => later
  | _, _, .skip behind, later => .skip (behind.append later)
  | _, _, .token behind, later => .token (behind.append later)
  | _, _, .node first behind, later => by
    rw [List.append_assoc]
    exact .node first (behind.append later)

/-- Tokens that have no part in a piece. -/
theorem skipped : ∀ row : List Token, Laid row []
  | [] => .nil
  | _ :: rest => .skip (skipped rest)

/-- A construct around pieces is a piece. -/
theorem around (first last : Piece) (laid : Laid row pieces) (head : pieces.head? = some first)
    (tail : pieces.getLast? = some last) (range : node.span = first.span.through last.span)
    (inner : node.children = pieces.filterMap Piece.node?) : Laid row [.node node] := by
  rw [← List.append_nil row]
  exact .node (.intro laid head tail range inner) .nil

end Laid

/-- Tokens of a source that follow one another, none of them empty. -/
structure Source.InOrder (source : Source) (tokens : List Token) : Prop where
  each : ∀ token ∈ tokens, token.span.source = source ∧
    token.span.start.index < token.span.stop.index
  ordered : tokens.Pairwise fun first second => first.span.Before second.span

section Ranges

variable {source : Source} {tokens row front rear : List Token} {first last span : Span}
  {node : Node} {pieces : List Piece}

/-- Fewer tokens in order are in order. -/
theorem Source.InOrder.sublist (inOrder : source.InOrder tokens) (fewer : row.Sublist tokens) :
    source.InOrder row :=
  ⟨fun token member => inOrder.each token (fewer.subset member), inOrder.ordered.sublist fewer⟩

/-- A range that is cut between some tokens is cut between more. -/
theorem Span.Cut.mono (cut : span.Cut source row) (more : row ⊆ tokens) :
    span.Cut source tokens := by
  obtain ⟨origin, ⟨one, start, starts⟩, ⟨other, stop, stops⟩, nonempty⟩ := cut
  exact ⟨origin, ⟨one, more start, starts⟩, ⟨other, more stop, stops⟩, nonempty⟩

/-- What is well-spanned among some tokens is so among more. -/
theorem Node.WellSpanned.mono (spanned : node.WellSpanned source row) (more : row ⊆ tokens) :
    node.WellSpanned source tokens :=
  ⟨spanned.cut.mono more, spanned.inside, spanned.ordered⟩

/-- The range of a token is cut from the source. -/
theorem Span.Cut.token {token : Token} (inOrder : source.InOrder tokens) (member : token ∈ tokens) :
    token.span.Cut source tokens :=
  ⟨(inOrder.each token member).1, ⟨token, member, rfl⟩, ⟨token, member, rfl⟩,
    (inOrder.each token member).2⟩

/-- What is cut from the front is before what is cut from behind it. -/
theorem Span.Cut.before (inOrder : source.InOrder (front ++ rear)) (one : first.Cut source front)
    (other : last.Cut source rear) : first.Before last := by
  obtain ⟨stop, member, stops⟩ := one.stop
  obtain ⟨start, member', starts⟩ := other.start
  rw [Span.Before, stops, starts]
  exact (List.pairwise_append.mp inOrder.ordered).2.2 stop member start member'

/-- Of ranges that follow one another, the first starts before all others. -/
theorem Span.start_le_of_head? {spans : List Span} (head : spans.head? = some first)
    (each : ∀ span ∈ spans, span.start.index < span.stop.index)
    (ordered : spans.Pairwise Span.Before) :
    ∀ span ∈ spans, first.start.index ≤ span.start.index := by
  obtain ⟨others, rfl⟩ := List.head?_eq_some_iff.mp head
  rw [List.pairwise_cons] at ordered
  rw [List.forall_mem_cons] at each ⊢
  refine ⟨Nat.le_refl _, fun span member => ?_⟩
  exact Nat.le_trans (Nat.le_of_lt each.1) (ordered.1 span member)

/-- Of ranges that follow one another, the last ends behind all others. -/
theorem Span.stop_le_of_getLast? {spans : List Span} (tail : spans.getLast? = some last)
    (each : ∀ span ∈ spans, span.start.index < span.stop.index)
    (ordered : spans.Pairwise Span.Before) : ∀ span ∈ spans, span.stop.index ≤ last.stop.index := by
  obtain ⟨others, rfl⟩ := List.getLast?_eq_some_iff.mp tail
  rw [List.pairwise_append] at ordered
  intro span member
  rcases List.mem_append.mp member with earlier | same
  · have before := ordered.2.2 span earlier last (List.mem_singleton_self _)
    exact Nat.le_trans before (Nat.le_of_lt (each last (by simp)))
  · rw [List.mem_singleton.mp same]

end Ranges

section Parts

variable {inner : Node}

/-- What is in constructs in a row is in one of them. -/
theorem Node.mem_constructsOfAll_iff {nodes : List Node} :
    inner ∈ constructsOfAll true true nodes ↔ ∃ child ∈ nodes, inner ∈ child.all := by
  -- The induction goes along the row.
  induction nodes with
  | nil => simp [constructsOfAll]
  | cons node nodes ih => simp [constructsOfAll, ih, all]

/-- What is in conditions and bodies is in one of them. -/
theorem Choices.mem_constructs : ∀ {choices : Choices},
    inner ∈ choices.constructs true true → ∃ child ∈ choices.children, inner ∈ child.all
  | .none, member => by simp [Choices.constructs] at member
  | .otherwise body _, member => ⟨body, List.mem_singleton_self body, member⟩
  | .test condition body _ rest, member => by
    rw [Choices.constructs, List.mem_append, List.mem_append] at member
    rcases member with (guard | body') | other
    · exact ⟨condition, List.mem_cons_self, guard⟩
    · exact ⟨body, List.mem_cons_of_mem _ List.mem_cons_self, body'⟩
    · obtain ⟨child, member, inside⟩ := mem_constructs other
      exact ⟨child, List.mem_cons_of_mem _ (List.mem_cons_of_mem _ member), inside⟩

/-- A construct in another one is that, or in one of the constructs right inside of it. -/
theorem Node.eq_or_mem_children {node : Node} (member : inner ∈ node.all) :
    inner = node ∨ ∃ child ∈ node.children, inner ∈ child.all := by
  -- One case for each kind of construct.
  cases node with
  | list | sequence =>
    exact (List.mem_cons.mp member).imp_right mem_constructsOfAll_iff.mp
  | conditional => exact (List.mem_cons.mp member).imp_right Choices.mem_constructs
  | call span callee arguments =>
    simpa [all, constructs, children, mem_constructsOfAll_iff] using member
  | forLoop span name first bound step body form =>
    cases step <;>
      simpa [all, constructs, constructsOfOption, children, or_assoc] using member
  | returning span value =>
    cases value <;> simpa [all, constructs, constructsOfOption, children] using member
  | _ => simpa [all, constructs, children] using member

end Parts

section Pieces

variable {source : Source} {tokens row front rear : List Token} {node : Node} {piece : Piece}
  {pieces : List Piece}

/-- Pieces that follow one another are cut from the source, and what is inside of them is, too. -/
structure Laid.Fine (source : Source) (row : List Token) (pieces : List Piece) : Prop where
  cut : ∀ piece ∈ pieces, piece.span.Cut source row
  ordered : (pieces.map Piece.span).Pairwise Span.Before
  nodes : ∀ node, .node node ∈ pieces → ∀ inner ∈ node.all, inner.WellSpanned source row

namespace Laid.Fine

/-- Pieces are fine among more tokens, too. -/
theorem mono (fine : Laid.Fine source row pieces) (more : row ⊆ tokens) :
    Laid.Fine source tokens pieces :=
  ⟨fun piece member => (fine.cut piece member).mono more, fine.ordered,
    fun node member inner inside => (fine.nodes node member inner inside).mono more⟩

/-- A piece in front of others. -/
theorem cons (inOrder : source.InOrder (front ++ rear)) (cut : piece.span.Cut source front)
    (inside : ∀ node, .node node = piece → ∀ inner ∈ node.all, inner.WellSpanned source front)
    (later : Laid.Fine source rear pieces) :
    Laid.Fine source (front ++ rear) (piece :: pieces) := by
  have behind := later.mono (List.subset_append_right front rear)
  refine ⟨List.forall_mem_cons.mpr ⟨cut.mono (List.subset_append_left front rear), behind.cut⟩,
    List.pairwise_cons.mpr ⟨?_, later.ordered⟩, fun node member inner part => ?_⟩
  · rintro _ member
    obtain ⟨other, inside, rfl⟩ := List.mem_map.mp member
    exact cut.before inOrder (later.cut other inside)
  · rcases List.mem_cons.mp member with same | member
    · exact (inside node same inner part).mono (List.subset_append_left front rear)
    · exact behind.nodes node member inner part

/-- A construct around fine pieces is well-spanned, with all that is inside of it. -/
theorem around {first last : Piece} (fine : Laid.Fine source row pieces)
    (head : pieces.head? = some first) (tail : pieces.getLast? = some last)
    (range : node.span = first.span.through last.span)
    (inner : node.children = pieces.filterMap Piece.node?) :
    ∀ part ∈ node.all, part.WellSpanned source row := by
  -- The pieces are in order, so all of them lie between the first and the last one.
  have spans : ∀ span ∈ pieces.map Piece.span, span.start.index < span.stop.index :=
    List.forall_mem_map.mpr fun piece member => (fine.cut piece member).nonempty
  have starts := List.forall_mem_map.mp <|
    Span.start_le_of_head? (by rw [List.head?_map, head]; rfl) spans fine.ordered
  have stops := List.forall_mem_map.mp <|
    Span.stop_le_of_getLast? (by rw [List.getLast?_map, tail]; rfl) spans fine.ordered
  have ahead := fine.cut first (List.mem_of_mem_head? head)
  have behind := fine.cut last (List.mem_of_getLast? tail)
  have present : ∀ child ∈ node.children, .node child ∈ pieces := by
    intro child member
    rw [inner] at member
    obtain ⟨piece, member, same⟩ := List.mem_filterMap.mp member
    cases piece with
    | token => cases same
    | node =>
      cases same
      exact member
  have cut : node.span.Cut source row := by
    rw [range]
    refine ⟨ahead.origin, ahead.start, behind.stop, ?_⟩
    exact Nat.lt_of_le_of_lt (starts last (List.mem_of_getLast? tail)) behind.nonempty
  -- A part of the construct is the construct itself, or a part of one of its pieces.
  intro part member
  rcases Node.eq_or_mem_children member with rfl | ⟨child, member, inside⟩
  · refine ⟨cut, fun child member => ?_, ?_⟩
    · rw [range]
      exact ⟨starts _ (present child member), stops _ (present child member)⟩
    · rw [inner]
      refine (List.pairwise_map.mp fine.ordered).filterMap Piece.node? ?_
      intro one other before child same child' same'
      cases one <;> cases same
      cases other <;> cases same'
      exact before
  · exact fine.nodes child (present child member) part inside

end Laid.Fine

mutual

/-- A construct that is put together from tokens in order is well-spanned. -/
theorem Node.Assembled.wellSpanned {row : List Token} {node : Node} (inOrder : source.InOrder row) :
    Node.Assembled row node → ∀ inner ∈ node.all, inner.WellSpanned source row
  | .intro laid head tail range inner => (laid.fine inOrder).around head tail range inner

/-- Pieces that are laid out in tokens in order are fine. -/
theorem Laid.fine {row : List Token} {pieces : List Piece} (inOrder : source.InOrder row) :
    Laid row pieces → Laid.Fine source row pieces
  | .nil => ⟨nofun, .nil, nofun⟩
  | .skip later =>
    (later.fine (inOrder.sublist (List.sublist_cons_self _ _))).mono (List.subset_cons_self _ _)
  | @Laid.token token rest pieces later => by
    have leaf : source.InOrder [token] := inOrder.sublist (by simp)
    have cut : (Piece.token token).span.Cut source [token] := .token leaf List.mem_cons_self
    exact .cons inOrder cut nofun (later.fine (inOrder.sublist (List.sublist_cons_self _ _)))
  | .node first later => by
    have spanned := first.wellSpanned (inOrder.sublist (List.sublist_append_left _ _))
    refine .cons inOrder (spanned _ (Node.mem_constructs_self _)).cut ?_
      (later.fine (inOrder.sublist (List.sublist_append_right _ _)))
    rintro node ⟨⟩
    exact spanned

end

end Pieces

end Scriptlet