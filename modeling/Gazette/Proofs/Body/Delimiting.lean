import Gazette.Proofs.Body.Pieces

/-!
# Line breaks that delimit

A line break delimits lines if no element stands around it, be it as deep in the tree as it may. The
parts of a tree hold as many line breaks as there are such ones in the tree, and their number is known
from the tree without its texts; so the lines of the printed text are those of the tree, and nothing
that is written in it adds a line or takes one away (`lines_raw_eq_pieces`).
-/

namespace Gazette

/-! ### Kinds of nodes -/

namespace Node

/-- Whether a node prints an element around its content. -/
def isElement : Node → Bool
  | link target _ | url target _ => isSafeLink target
  | blockQuote _ | codeBlock .. | inlineCode _ | styled .. => true
  | text _ | lineBreak | mention .. | broadcast _ | emoticon _ | emoji .. | timestamp ..
  | unknown .. => false

def isLineBreak : Node → Bool
  | lineBreak => true
  | _ => false

def content? : Node → Option Content
  | link _ content | url _ content | blockQuote content | codeBlock _ content | inlineCode content
  | styled _ content | emoticon content => some content
  | unknown _ content? => content?
  | text _ | lineBreak | mention .. | broadcast _ | emoji .. | timestamp .. => none

theorem sizeOf_lt_of_content? {node : Node} {content : Content} (h : node.content? = some content) :
    sizeOf content < sizeOf node := by
  cases node with
  | unknown kind content? =>
    cases h
    simp only [unknown.sizeOf_spec, Option.some.sizeOf_spec]
    omega
  | text | lineBreak | mention | broadcast | emoji | timestamp => cases h
  | link | url | codeBlock | styled | blockQuote | inlineCode | emoticon =>
    cases h
    simp only [link.sizeOf_spec, url.sizeOf_spec, codeBlock.sizeOf_spec, styled.sizeOf_spec,
      blockQuote.sizeOf_spec, inlineCode.sizeOf_spec, emoticon.sizeOf_spec]
    omega

end Node

end Gazette

namespace Gazette.Body

/-! ### The line breaks of a tree -/

mutual

/-- The nodes of a tree in their order, each with the nodes around it, the innermost first. -/
def places (around : List Node) (node : Node) : List (Node × List Node) :=
  (node, around) ::
    match node with
    | .link _ content | .url _ content | .blockQuote content | .codeBlock _ content
    | .inlineCode content | .styled _ content | .emoticon content | .unknown _ (some content) =>
      placesOfContent (node :: around) content
    | .text _ | .lineBreak | .mention .. | .broadcast _ | .emoji .. | .timestamp ..
    | .unknown _ none => []

def placesOfContent (around : List Node) : Content → List (Node × List Node)
  | .text _ => []
  | .nodes nodes => placesOfAll around nodes

def placesOfAll (around : List Node) : List Node → List (Node × List Node)
  | [] => []
  | node :: rest => places around node ++ placesOfAll around rest

end

/-- Whether a node at some place is a line break that no element stands around. -/
def Delimits (place : Node × List Node) : Prop :=
  place.1.isLineBreak = true ∧ ∀ outer ∈ place.2, outer.isElement = false

instance (place : Node × List Node) : Decidable (Delimits place) := by
  unfold Delimits
  infer_instance

/-- The number of those line breaks of a tree that no element stands around. -/
def delimiters (nodes : List Node) : Nat := (placesOfAll [] nodes).countP fun place => Delimits place

example : delimiters [.lineBreak, .emoticon (.nodes [.lineBreak]), .blockQuote (.nodes [.lineBreak]),
    .link "javascript:" (.nodes [.lineBreak])] = 3 := by decide

theorem places_eq (around : List Node) (node : Node) :
    places around node =
      (node, around) :: node.content?.elim [] (placesOfContent (node :: around)) := by
  cases node with
  | unknown kind content? => cases content? <;> rw [places] <;> rfl
  | _ => rw [places]; rfl

theorem count_parts (resolver : Resolver) (node : Node) :
    (parts resolver node).count .lineBreak =
      if node.isLineBreak then 1
      else if node.isElement then 0
      else node.content?.elim 0 fun content => (partsOfContent resolver content).count .lineBreak := by
  cases node with
  | link target content | url target content =>
    rw [parts]
    cases h : isSafeLink target <;> simp [whole, Node.isLineBreak, Node.isElement, Node.content?, h]
  | unknown kind content? =>
    cases content? <;>
      simp [parts, whole, Node.isLineBreak, Node.isElement, Node.content?]
  | _ => simp [parts, whole, Node.isLineBreak, Node.isElement, Node.content?]

theorem count_partsOfAll_cons (resolver : Resolver) (node : Node) (rest : List Node) :
    (partsOfAll resolver (node :: rest)).count .lineBreak =
      (parts resolver node).count .lineBreak + (partsOfAll resolver rest).count .lineBreak := by
  cases rest with
  | nil => rw [partsOfAll, partsOfAll, List.count_nil, Nat.add_zero]
  | cons next rest =>
    rw [partsOfAll, List.count_append, List.count_cons_of_ne (fun heq => Part.noConfusion heq)]
    exact List.cons_ne_nil next rest

/-- Nothing inside of an element delimits. -/
theorem not_delimits_of_isElement {place : Node × List Node}
    (h : ∃ outer ∈ place.2, outer.isElement = true) : ¬Delimits place := by
  rintro ⟨-, hnone⟩
  obtain ⟨outer, houter, helement⟩ := h
  rw [hnone outer houter] at helement
  cases helement

mutual

theorem countP_places_of_isElement {around : List Node}
    (h : ∃ outer ∈ around, outer.isElement = true) (node : Node) :
    (places around node).countP (fun place => Delimits place) = 0 := by
  have hnode : ∃ outer ∈ node :: around, outer.isElement = true :=
    h.imp fun outer hmem => ⟨List.mem_cons_of_mem node hmem.1, hmem.2⟩
  rw [places_eq, List.countP_cons_of_neg (by simpa using not_delimits_of_isElement h)]
  cases hcontent : node.content? with
  | none => rfl
  | some content =>
    have := Node.sizeOf_lt_of_content? hcontent
    exact countP_placesOfContent_of_isElement hnode content
termination_by sizeOf node

theorem countP_placesOfContent_of_isElement {around : List Node}
    (h : ∃ outer ∈ around, outer.isElement = true) (content : Content) :
    (placesOfContent around content).countP (fun place => Delimits place) = 0 := by
  cases content with
  | text content => rfl
  | nodes nodes => exact countP_placesOfAll_of_isElement h nodes
termination_by sizeOf content

theorem countP_placesOfAll_of_isElement {around : List Node}
    (h : ∃ outer ∈ around, outer.isElement = true) (nodes : List Node) :
    (placesOfAll around nodes).countP (fun place => Delimits place) = 0 := by
  cases nodes with
  | nil => rfl
  | cons node rest =>
    rw [placesOfAll, List.countP_append, countP_places_of_isElement h node,
      countP_placesOfAll_of_isElement h rest]
termination_by sizeOf nodes

end

mutual

theorem countP_places (resolver : Resolver) {around : List Node}
    (h : ∀ outer ∈ around, outer.isElement = false) (node : Node) :
    (places around node).countP (fun place => Delimits place) =
      (parts resolver node).count .lineBreak := by
  rw [places_eq, count_parts]
  cases hbreak : node.isLineBreak with
  | true =>
    cases node with
    | lineBreak => exact List.countP_cons_of_pos (decide_eq_true ⟨rfl, h⟩)
    | _ => cases hbreak
  | false =>
    have hnot : ¬Delimits (node, around) := fun hdelimits => by
      rw [hdelimits.1] at hbreak
      cases hbreak
    rw [List.countP_cons_of_neg (by simpa using hnot)]
    cases hcontent : node.content? with
    | none =>
      cases node.isElement <;> rfl
    | some content =>
      have := Node.sizeOf_lt_of_content? hcontent
      cases helement : node.isElement with
      | true =>
        exact countP_placesOfContent_of_isElement ⟨node, List.mem_cons_self, helement⟩ content
      | false => exact countP_placesOfContent resolver (List.forall_mem_cons.mpr ⟨helement, h⟩) content
termination_by sizeOf node

theorem countP_placesOfContent (resolver : Resolver) {around : List Node}
    (h : ∀ outer ∈ around, outer.isElement = false) (content : Content) :
    (placesOfContent around content).countP (fun place => Delimits place) =
      (partsOfContent resolver content).count .lineBreak := by
  cases content with
  | text content => rfl
  | nodes nodes => exact countP_placesOfAll resolver h nodes
termination_by sizeOf content

theorem countP_placesOfAll (resolver : Resolver) {around : List Node}
    (h : ∀ outer ∈ around, outer.isElement = false) (nodes : List Node) :
    (placesOfAll around nodes).countP (fun place => Delimits place) =
      (partsOfAll resolver nodes).count .lineBreak := by
  cases nodes with
  | nil => rfl
  | cons node rest =>
    rw [placesOfAll, List.countP_append, countP_places resolver h node,
      countP_placesOfAll resolver h rest, count_partsOfAll_cons]
termination_by sizeOf nodes

end

/-! ### Trees without their texts -/

/-- What is left of a tree without its texts: its line breaks, and for content whether an element
stands around it. -/
inductive Outline where
  | lineBreak
  | leaf
  | inner (isElement : Bool) (content : List Outline)

mutual

def outline (node : Node) : Outline :=
  match node with
  | .lineBreak => .lineBreak
  | .link _ content | .url _ content | .blockQuote content | .codeBlock _ content
  | .inlineCode content | .styled _ content | .emoticon content | .unknown _ (some content) =>
    .inner node.isElement (outlineOfContent content)
  | .text _ | .mention .. | .broadcast _ | .emoji .. | .timestamp .. | .unknown _ none => .leaf

def outlineOfContent : Content → List Outline
  | .text _ => [.leaf]
  | .nodes nodes => outlineOfAll nodes

def outlineOfAll : List Node → List Outline
  | [] => []
  | node :: rest => outline node :: outlineOfAll rest

end

mutual

def Outline.breaks : Outline → Nat
  | lineBreak => 1
  | leaf => 0
  | inner isElement content => if isElement then 0 else breaksOfAll content

def Outline.breaksOfAll : List Outline → Nat
  | [] => 0
  | outline :: rest => breaks outline + breaksOfAll rest

end

theorem breaks_outline (node : Node) :
    (outline node).breaks =
      if node.isLineBreak then 1
      else if node.isElement then 0
      else node.content?.elim 0 fun content => Outline.breaksOfAll (outlineOfContent content) := by
  cases node with
  | unknown kind content? => cases content? <;> rw [outline] <;> rfl
  | _ => rw [outline]; rfl

mutual

theorem count_parts_eq_breaks (resolver : Resolver) (node : Node) :
    (parts resolver node).count .lineBreak = (outline node).breaks := by
  rw [count_parts, breaks_outline]
  cases hcontent : node.content? with
  | none => rfl
  | some content =>
    have := Node.sizeOf_lt_of_content? hcontent
    rw [Option.elim_some, Option.elim_some, count_partsOfContent_eq_breaks resolver content]
termination_by sizeOf node

theorem count_partsOfContent_eq_breaks (resolver : Resolver) (content : Content) :
    (partsOfContent resolver content).count .lineBreak =
      Outline.breaksOfAll (outlineOfContent content) := by
  cases content with
  | text content => rfl
  | nodes nodes => exact count_partsOfAll_eq_breaks resolver nodes
termination_by sizeOf content

theorem count_partsOfAll_eq_breaks (resolver : Resolver) (nodes : List Node) :
    (partsOfAll resolver nodes).count .lineBreak = Outline.breaksOfAll (outlineOfAll nodes) := by
  cases nodes with
  | nil => rfl
  | cons node rest =>
    rw [outlineOfAll, Outline.breaksOfAll, count_partsOfAll_cons,
      count_parts_eq_breaks resolver node, count_partsOfAll_eq_breaks resolver rest]
termination_by sizeOf nodes

end

/-- Cutting the printed text agrees with the tree. The text is a row of parts, in which the line breaks
that no element stands around are parts of their own, and its lines are what stands between these.
There is one line more than there are such line breaks in the tree, so neither texts and attributes
nor what the resolver answers add a line or take one away. -/
theorem lines_raw_eq_pieces (resolver : Resolver) (nodes : List Node) :
    raw resolver nodes = (partsOfAll resolver nodes).flatMap Part.print ∧
      lines (raw resolver nodes) = pieces (partsOfAll resolver nodes) ∧
      (partsOfAll resolver nodes).count .lineBreak = delimiters nodes ∧
      (lines (raw resolver nodes)).length = delimiters nodes + 1 ∧
      ∀ (other : Resolver) (tree : List Node), outlineOfAll tree = outlineOfAll nodes →
        (lines (raw other tree)).length = (lines (raw resolver nodes)).length := by
  have hcount : (partsOfAll resolver nodes).count .lineBreak = delimiters nodes :=
    (countP_placesOfAll resolver (fun _ hmem => absurd hmem List.not_mem_nil) nodes).symm
  have hlength : ∀ (other : Resolver) (tree : List Node), (lines (raw other tree)).length =
      Outline.breaksOfAll (outlineOfAll tree) + 1 := by
    intro other tree
    rw [lines_raw_eq, length_pieces, count_partsOfAll_eq_breaks]
  refine ⟨?_, lines_raw_eq resolver nodes, hcount, ?_, fun other tree houtline => ?_⟩
  · rw [← intercalate_pieces, ← lines_raw_eq]
    exact (intercalate_linesFrom 0 _).symm
  · rw [lines_raw_eq, length_pieces, hcount]
  · rw [hlength, hlength, houtline]

end Gazette.Body
