import Gazette.Proofs.Body.Cutting

/-!
# The parts of a tree

What a tree prints outside of all elements is a row of parts, in which a line break is a part of its
own. `linesFrom_html` follows the pass that cuts a text into lines over the row, whatever comes behind
it, and the lines of the text are what stands between the line breaks of the row (`lines_raw_eq`).
-/

namespace Gazette.Body

open Markup (escapeStrictly tokensOfAll)
open Text (after?)

/-! ### Parts of a tree -/

/-- What a tree prints outside of all elements: a line break, or the text of something else. -/
inductive Part where
  | lineBreak
  | text (s : List Char)
  deriving Repr, DecidableEq

def Part.print : Part → List Char
  | lineBreak => Markup.lineBreakText
  | text s => s

/-- What stands between the line breaks of a row of parts. -/
def pieces (parts : List Part) : List (List Char) :=
  (parts.splitOn .lineBreak).map (List.flatMap Part.print)

/-- A node that is a part as a whole. -/
def whole (resolver : Resolver) (node : Node) : List Part :=
  [.text (Markup.printAll (Node.html resolver node))]

mutual

/-- The parts of a node. Content is looked into unless an element stands around it. -/
def parts (resolver : Resolver) : Node → List Part
  | .lineBreak => [.lineBreak]
  | .link target content =>
    if isSafeLink target then whole resolver (.link target content)
    else partsOfContent resolver content
  | .url target content =>
    if isSafeLink target then whole resolver (.url target content)
    else partsOfContent resolver content
  | .emoticon content => partsOfContent resolver content
  | .unknown kind (some content) =>
    .text (escapeStrictly kind.toList) :: .text ": ".toList :: partsOfContent resolver content
  | node@(.text _) | node@(.blockQuote _) | node@(.mention ..) | node@(.broadcast _)
  | node@(.codeBlock ..) | node@(.inlineCode _) | node@(.styled ..) | node@(.emoji ..)
  | node@(.timestamp ..) | node@(.unknown _ none) => whole resolver node

def partsOfContent (resolver : Resolver) : Content → List Part
  | .text content => [.text (escapeStrictly content.toList)]
  | .nodes nodes => partsOfAll resolver nodes

def partsOfAll (resolver : Resolver) : List Node → List Part
  | [] => []
  | [node] => parts resolver node
  | node :: rest => parts resolver node ++ .text [Markup.separatorChar] :: partsOfAll resolver rest

end

/-! ### Parts in front of lines -/

/-- Puts a part before some lines: a line break begins a new line, and all else goes on the first. -/
def Part.before : Part → List (List Char) → List (List Char)
  | lineBreak, lines => [] :: lines
  | text s, lines => prepend s lines

def allBefore (parts : List Part) (lines : List (List Char)) : List (List Char) :=
  parts.foldr Part.before lines

theorem allBefore_append (a b : List Part) (lines : List (List Char)) :
    allBefore (a ++ b) lines = allBefore a (allBefore b lines) :=
  List.foldr_append

theorem prepend_prepend (s t : List Char) (lines : List (List Char)) :
    prepend s (prepend t lines) = prepend (s ++ t) lines := by
  cases lines with
  | nil => rfl
  | cons line rest =>
    rw [prepend, prepend, prepend, List.append_assoc]

theorem prepend_nil {lines : List (List Char)} (h : lines ≠ []) : prepend [] lines = lines := by
  cases lines with
  | nil => exact absurd rfl h
  | cons line rest => rfl

theorem prepend_ne_nil (s : List Char) (lines : List (List Char)) : prepend s lines ≠ [] := by
  cases lines with
  | nil => exact List.cons_ne_nil _ _
  | cons line rest => exact List.cons_ne_nil _ _

theorem pieces_cons (part : Part) (parts : List Part) :
    pieces (part :: parts) = part.before (pieces parts) := by
  have hne := List.splitOn_ne_nil Part.lineBreak parts
  unfold pieces
  rw [List.splitOn, List.splitOnP_cons_eq_if_modifyHead]
  cases part with
  | lineBreak => rfl
  | text s =>
    rw [if_neg (fun heq => Part.noConfusion (beq_iff_eq.mp heq)), ← List.splitOn]
    cases hsplit : parts.splitOn .lineBreak with
    | nil => exact absurd hsplit hne
    | cons piece rest => rfl

theorem pieces_eq_allBefore (parts : List Part) : pieces parts = allBefore parts [[]] := by
  induction parts with
  | nil => rfl
  | cons part parts ih =>
    rw [pieces_cons, ih]
    rfl

/-! ### The text pass over one part -/

theorem linesFrom_ne_nil (depth : Nat) (s : List Char) : linesFrom depth s ≠ [] := by
  cases s with
  | nil =>
    rw [linesFrom]
    exact List.cons_ne_nil _ _
  | cons c rest =>
    rw [linesFrom]
    split
    · split
      · exact List.cons_ne_nil _ _
      · exact prepend_ne_nil _ _
    · exact prepend_ne_nil _ _

theorem linesFrom_append_of_notMem {s : List Char} (h : '<' ∉ s) (depth : Nat) (rest : List Char) :
    linesFrom depth (s ++ rest) = prepend s (linesFrom depth rest) := by
  induction s with
  | nil => exact (prepend_nil (linesFrom_ne_nil depth rest)).symm
  | cons c s ih =>
    have hc : c ≠ '<' := fun heq => h (heq ▸ List.mem_cons_self)
    have hs : '<' ∉ s := fun hmem => h (List.mem_cons_of_mem c hmem)
    rw [List.cons_append, linesFrom_cons_of_ne hc, ih hs, prepend_prepend]
    rfl

/-- One more element around a token makes no difference to what the token does. -/
theorem depthAfter_succ {token : Token} {mark : Mark} {stack next : OpenElements}
    (hmark : mark? token = some mark) (hstep : mark.step? stack = some next) :
    depthAfter token (stack.length + 1) = next.length + 1 := by
  have hdepth := depthAfter_eq_length hmark hstep
  rw [depthAfter, hmark] at hdepth ⊢
  cases mark with
  | opens name isHeadline | breaks => exact congrArg (· + 1) hdepth
  | closes name =>
    cases stack with
    | nil => cases hstep
    | cons top rest =>
      simp only [List.length_cons] at hdepth ⊢
      omega

/-- Inside of an element nothing is cut. The induction is on the tokens, with the elements that are
open inside of it generalized. -/
theorem linesFrom_inside {stack : OpenElements} {tokens : List Token}
    (hwritten : ∀ token ∈ tokens, IsWritten token) (h : nest? stack (marks tokens) = some [])
    (rest : List Char) :
    linesFrom (stack.length + 1) (Token.printAll tokens ++ rest) =
      prepend (Token.printAll tokens) (linesFrom 1 rest) := by
  induction tokens generalizing stack with
  | nil =>
    cases h
    exact (prepend_nil (linesFrom_ne_nil 1 rest)).symm
  | cons token tokens ih =>
    obtain ⟨htoken, hrest⟩ := List.forall_mem_cons.mp hwritten
    have hbehind : ∃ next, depthAfter token (stack.length + 1) = next.length + 1 ∧
        nest? next (marks tokens) = some [] := by
      cases hmark : mark? token with
      | none =>
        rw [marks, List.filterMap_cons_none hmark] at h
        exact ⟨stack, by rw [depthAfter, hmark], h⟩
      | some mark =>
        rw [marks, List.filterMap_cons_some hmark, nest?] at h
        obtain ⟨next, hstep, hnext⟩ := Option.bind_eq_some_iff.mp h
        exact ⟨next, depthAfter_succ hmark hstep, hnext⟩
    obtain ⟨next, hdepth, hnext⟩ := hbehind
    have hhead : linesFrom (stack.length + 1) (token.print ++ (Token.printAll tokens ++ rest)) =
        prepend token.print (linesFrom (depthAfter token (stack.length + 1))
          (Token.printAll tokens ++ rest)) := by
      have hdeep : ¬(stack.length + 1 = 0 ∧ token = .opening .lineBreak) := fun hzero =>
        Nat.succ_ne_zero _ hzero.1
      cases token with
      | char c => exact linesFrom_cons_of_ne htoken.1 _ _
      | opening tag => exact linesFrom_print_tag htoken (fun _ => Token.noConfusion) hdeep _
      | closing name => exact linesFrom_print_tag htoken (fun _ => Token.noConfusion) hdeep _
    rw [Token.printAll_cons, List.append_assoc, hhead, hdepth, ih hrest hnext, prepend_prepend]

/-- Text that the pass takes to be of one line wherever it stands outside of all elements. -/
def IsOneLine (s : List Char) : Prop :=
  ∀ rest, linesFrom 0 (s ++ rest) = prepend s (linesFrom 0 rest)

theorem isOneLine_of_notMem {s : List Char} (h : '<' ∉ s) : IsOneLine s :=
  linesFrom_append_of_notMem h 0

theorem IsOneLine.append {s t : List Char} (hs : IsOneLine s) (ht : IsOneLine t) :
    IsOneLine (s ++ t) := by
  intro rest
  rw [List.append_assoc, hs, ht, prepend_prepend]

theorem isOneLine_escapeStrictly (s : List Char) : IsOneLine (escapeStrictly s) :=
  isOneLine_of_notMem fun hmem => (mem_escapeStrictly hmem).1 rfl

theorem isOneLine_escape (s : List Char) : IsOneLine (Markup.escape s) :=
  isOneLine_of_notMem fun hmem => (mem_escape hmem).2.1 rfl

/-- An image is no line break, and opens no element. -/
theorem isOneLine_image {attributes : List Attribute}
    (h : IsWritten (.opening (Markup.tag "img" attributes))) :
    IsOneLine (Markup.print (.void "img" attributes)) := by
  intro rest
  have hne : Token.opening (Markup.tag "img" attributes) ≠ .opening .lineBreak := by
    intro heq
    have hname : "img" = "br" := congrArg Tag.name (Token.opening.inj heq)
    exact absurd hname (by decide)
  rw [Markup.print, ← Markup.print_tag]
  exact linesFrom_print_tag h (fun _ => Token.noConfusion) (fun hbreak => hne hbreak.2) rest

/-- An element is of one line, whatever stands in it. -/
theorem isOneLine_element {name : String} {attributes : List Attribute} {children : List Markup}
    (h : IsFragment (tokensOfAll [.element name attributes children]))
    (hchildren : IsFragment (tokensOfAll children)) :
    IsOneLine (Markup.print (.element name attributes children)) := by
  rw [tokensOfAll_singleton, Markup.tokens] at h
  have hopening := h.written _ List.mem_cons_self
  have hclosing := h.written (.closing name) (by simp)
  have hnames : ∀ name ∈ closedNames, name ≠ "br" ∧ name ≠ "img" := by decide
  obtain ⟨hbr, himg⟩ := hnames name hclosing
  have hmark : mark? (.opening (Markup.tag name attributes)) =
      some (.opens name (isHeadline (Markup.tag name attributes))) := by
    change (if name = "br" then _ else if name = "img" then _ else _) = _
    rw [if_neg hbr, if_neg himg]
    rfl
  have hdepth : depthAfter (.opening (Markup.tag name attributes)) 0 = 1 := by
    rw [depthAfter, hmark]
  intro rest
  have hopen : ∀ rest, linesFrom 0 (Token.print (.opening (Markup.tag name attributes)) ++ rest) =
      prepend (Token.print (.opening (Markup.tag name attributes))) (linesFrom 1 rest) := by
    intro rest
    rw [linesFrom_print_tag hopening (fun _ => Token.noConfusion)
      (fun hbreak => by rw [hbreak.2] at hmark; cases hmark), hdepth]
  have hinside : ∀ rest, linesFrom 1 (Token.printAll (tokensOfAll children) ++ rest) =
      prepend (Token.printAll (tokensOfAll children)) (linesFrom 1 rest) :=
    @linesFrom_inside [] _ hchildren.written hchildren.nested
  have hclosed : linesFrom 1 (Markup.closingTag name ++ rest) =
      prepend (Markup.closingTag name) (linesFrom 0 rest) :=
    linesFrom_print_tag hclosing (fun _ => Token.noConfusion)
      (fun hbreak => Nat.one_ne_zero hbreak.1) rest
  rw [Markup.print, ← Markup.print_tag, ← Markup.printAll_tokensOfAll, List.append_assoc,
    List.append_assoc, hopen, hinside, hclosed, prepend_prepend, prepend_prepend,
    List.append_assoc]

theorem printAll_singleton (piece : Markup) : Markup.printAll [piece] = piece.print := by
  rw [Markup.printAll, Markup.printAll, List.append_nil]

theorem isOneLine_message (content : String) :
    IsOneLine (Markup.printAll [.message content]) := by
  rw [printAll_singleton, Markup.print]
  exact isOneLine_escapeStrictly content.toList

theorem isOneLine_text (content : String) : IsOneLine (Markup.printAll [.text content]) := by
  rw [printAll_singleton, Markup.print]
  exact isOneLine_escape content.toList

theorem isOneLine_time (seconds : Int) (code : String) :
    IsOneLine (Markup.printAll [Node.timeMarkup seconds code]) := by
  have hfragment := IsFragment.time seconds code
  unfold Node.timeMarkup at hfragment ⊢
  dsimp only at hfragment ⊢
  cases hiso : Time.isoText? seconds with
  | none => exact isOneLine_message _
  | some iso =>
    rw [hiso] at hfragment
    rw [printAll_singleton]
    exact isOneLine_element hfragment (by rw [tokensOfAll_singleton]; exact .text _)

/-! ### The text pass over a tree -/

theorem linesFrom_whole {resolver : Resolver} {node : Node}
    (h : IsOneLine (Markup.printAll (Node.html resolver node))) (rest : List Char) :
    linesFrom 0 (Markup.printAll (Node.html resolver node) ++ rest) =
      allBefore (whole resolver node) (linesFrom 0 rest) :=
  h rest

/-- A node that prints an element is a part as a whole. -/
theorem linesFrom_element {resolver : Resolver} {node : Node} {name : String}
    {attributes : List Attribute} {children : List Markup}
    (hhtml : Node.html resolver node = [.element name attributes children])
    (hchildren : IsFragment (tokensOfAll children)) (rest : List Char) :
    linesFrom 0 (Markup.printAll (Node.html resolver node) ++ rest) =
      allBefore (whole resolver node) (linesFrom 0 rest) := by
  have hnode := isFragment_html resolver node
  refine linesFrom_whole ?_ rest
  rw [hhtml] at hnode ⊢
  rw [printAll_singleton]
  exact isOneLine_element hnode hchildren

mutual

theorem linesFrom_html (resolver : Resolver) : (node : Node) → (rest : List Char) →
    linesFrom 0 (Markup.printAll (Node.html resolver node) ++ rest) =
      allBefore (parts resolver node) (linesFrom 0 rest)
  | .lineBreak, rest => by
    rw [Node.html, parts, printAll_singleton]
    exact linesFrom_lineBreak rest
  | .link target content, rest => by
    have hcontent := isFragment_htmlOfContent resolver content
    rw [parts]
    split
    · next h => exact linesFrom_element (by rw [Node.html, if_pos h, Markup.link]) hcontent rest
    · next h =>
      rw [Node.html, if_neg h]
      exact linesFrom_htmlOfContent resolver content rest
  | .url target content, rest => by
    have hcontent := isFragment_htmlOfContent resolver content
    rw [parts]
    split
    · next h => exact linesFrom_element (by rw [Node.html, if_pos h]) hcontent rest
    · next h =>
      rw [Node.html, if_neg h]
      exact linesFrom_htmlOfContent resolver content rest
  | .blockQuote content, rest => by
    rw [parts]
    exact linesFrom_element (by rw [Node.html, Markup.plain])
      (isFragment_htmlOfContent resolver content) rest
  | .mention reference id, rest => by
    rw [parts]
    exact linesFrom_whole (by rw [Node.html]; exact isOneLine_message _) rest
  | .broadcast call, rest => by
    rw [parts]
    exact linesFrom_whole (by rw [Node.html]; exact isOneLine_text _) rest
  | .codeBlock language content, rest => by
    have hcode : IsFragment (tokensOfAll [.plain "code" (Node.htmlOfContent resolver content)]) :=
      .ofPlain (by decide) rfl (isFragment_htmlOfContent resolver content)
    rw [parts]
    exact linesFrom_element (by rw [Node.html]) hcode rest
  | .inlineCode content, rest => by
    rw [parts]
    exact linesFrom_element (by rw [Node.html, Markup.plain])
      (isFragment_htmlOfContent resolver content) rest
  | .styled style content, rest => by
    have hcontent := isFragment_htmlOfContent resolver content
    rw [parts]
    cases style with
    | em | strong | underline | strikethrough =>
      exact linesFrom_element (by rw [Node.html, Style.markup, Markup.plain]) hcontent rest
    | spoiler =>
      exact linesFrom_element (by rw [Node.html, Style.markup, Markup.classed]) hcontent rest
  | .emoticon content, rest => by
    rw [Node.html, parts]
    exact linesFrom_htmlOfContent resolver content rest
  | .text content, rest => by
    rw [parts]
    exact linesFrom_whole (by rw [Node.html]; exact isOneLine_message content) rest
  | .emoji none name animated, rest => by
    rw [parts]
    exact linesFrom_whole (by rw [Node.html]; exact isOneLine_message name) rest
  | .emoji (some id) name animated, rest => by
    have himage := (IsFragment.image resolver id name animated).written
    rw [tokensOfAll_singleton, Markup.tokens] at himage
    rw [parts]
    refine linesFrom_whole ?_ rest
    rw [Node.html, printAll_singleton]
    exact isOneLine_image (himage _ List.mem_cons_self)
  | .timestamp seconds code, rest => by
    rw [parts]
    exact linesFrom_whole (by rw [Node.html]; exact isOneLine_time seconds code) rest
  | .unknown kind none, rest => by
    rw [parts]
    refine linesFrom_whole ?_ rest
    rw [Node.html, Markup.printAll, Markup.print]
    exact (isOneLine_escapeStrictly _).append (isOneLine_text ": ")
  | .unknown kind (some content), rest => by
    have htext := isOneLine_text ": "
    rw [printAll_singleton, Markup.print] at htext
    rw [Node.html, Markup.printAll, Markup.printAll, Markup.print, Markup.print, List.append_assoc,
      List.append_assoc, isOneLine_escapeStrictly, htext,
      linesFrom_htmlOfContent resolver content rest, parts]
    rfl

theorem linesFrom_htmlOfContent (resolver : Resolver) : (content : Content) → (rest : List Char) →
    linesFrom 0 (Markup.printAll (Node.htmlOfContent resolver content) ++ rest) =
      allBefore (partsOfContent resolver content) (linesFrom 0 rest)
  | .text content, rest => by
    rw [Node.htmlOfContent, partsOfContent, isOneLine_message, printAll_singleton, Markup.print]
    rfl
  | .nodes nodes, rest => by
    rw [Node.htmlOfContent, partsOfContent]
    exact linesFrom_htmlOfAll resolver nodes rest

theorem linesFrom_htmlOfAll (resolver : Resolver) : (nodes : List Node) → (rest : List Char) →
    linesFrom 0 (Markup.printAll (Node.htmlOfAll resolver nodes) ++ rest) =
      allBefore (partsOfAll resolver nodes) (linesFrom 0 rest)
  | [], rest => rfl
  | [node], rest => by
    rw [Node.htmlOfAll, partsOfAll]
    exact linesFrom_html resolver node rest
  | node :: next :: nodes, rest => by
    have hseparator : IsOneLine [Markup.separatorChar] := isOneLine_of_notMem (by decide)
    rw [Node.htmlOfAll, partsOfAll, Markup.printAll_append, Markup.printAll, Markup.print,
      List.append_assoc, linesFrom_html resolver node, List.append_assoc, hseparator,
      linesFrom_htmlOfAll resolver (next :: nodes) rest, allBefore_append]
    · rfl
    · simp
    · simp

end

/-! ### Lines put together -/

theorem intercalate_prepend (mark s : List Char) (lines : List (List Char)) :
    mark.intercalate (prepend s lines) = s ++ mark.intercalate lines := by
  cases lines with
  | nil => simp [prepend, List.intercalate]
  | cons line rest =>
    cases rest with
    | nil => simp [prepend, List.intercalate]
    | cons next rest => simp [prepend, List.intercalate]

/-- The lines of a text with line breaks between them are the text. -/
theorem intercalate_linesFrom (depth : Nat) (s : List Char) :
    Markup.lineBreakText.intercalate (linesFrom depth s) = s := by
  fun_induction linesFrom depth s with
  | case1 => rfl
  | case2 depth rest behind h ih =>
    have hafter : after? Markup.lineBreakText ('<' :: rest) = some behind := by
      split at h
      · exact h
      · cases h
    rw [List.intercalate_cons_of_ne_nil (linesFrom_ne_nil 0 behind), ih]
    exact (Text.after?_eq_some_iff.mp hafter).symm
  | case3 depth rest h ih => rw [intercalate_prepend, ih, cutTag_append]
  | case4 depth c rest hc ih =>
    rw [intercalate_prepend, ih]
    rfl

theorem pieces_ne_nil (parts : List Part) : pieces parts ≠ [] := by
  simp [pieces]

theorem intercalate_pieces (parts : List Part) :
    Markup.lineBreakText.intercalate (pieces parts) = parts.flatMap Part.print := by
  induction parts with
  | nil => rfl
  | cons part parts ih =>
    rw [pieces_cons, List.flatMap_cons, ← ih]
    cases part with
    | lineBreak => exact List.intercalate_cons_of_ne_nil (pieces_ne_nil parts)
    | text s => exact intercalate_prepend _ _ _

theorem length_pieces (parts : List Part) :
    (pieces parts).length = parts.count .lineBreak + 1 := by
  induction parts with
  | nil => rfl
  | cons part parts ih =>
    rw [pieces_cons]
    cases part with
    | lineBreak => rw [Part.before, List.length_cons, ih, List.count_cons_self]
    | text s =>
      have hlength : (prepend s (pieces parts)).length = (pieces parts).length := by
        cases hpieces : pieces parts with
        | nil => exact absurd hpieces (pieces_ne_nil parts)
        | cons piece rest => rfl
      rw [Part.before, hlength, ih, List.count_cons_of_ne (fun heq => Part.noConfusion heq)]

theorem lines_raw_eq (resolver : Resolver) (nodes : List Node) :
    lines (raw resolver nodes) = pieces (partsOfAll resolver nodes) := by
  have htree := linesFrom_htmlOfAll resolver nodes []
  have hnil : linesFrom 0 [] = [[]] := by rw [linesFrom]
  rw [List.append_nil, hnil, ← pieces_eq_allBefore] at htree
  exact htree

end Gazette.Body
