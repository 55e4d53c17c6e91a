import Gazette.Proofs.Body.Delimiting
import Gazette.Proofs.Body.Marked
import Gazette.Proofs.Text.Parts

/-!
# Texts of a tree in the body

Every text of a tree stands in one line of the printed message (`exists_infix_of_mem_cut`). A
promoted line loses its sign and fillers at its ends, and the passes behind promotion thin it, so the
body holds the text but for some of its front, thinned (`exists_infix_render`).
-/

namespace Gazette

open Markup (escapeStrictly escapeCharStrictly tokensOfAll)

namespace Markup

theorem escapeCharStrictly_eq_cases (c : Char) :
    escapeCharStrictly c = [c] ∨ ∃ tail, escapeCharStrictly c = '&' :: tail := by
  unfold escapeCharStrictly
  split
  · exact .inr ⟨_, rfl⟩
  · unfold escapeChar
    split
    · exact .inr ⟨_, rfl⟩
    · exact .inr ⟨_, rfl⟩
    · exact .inr ⟨_, rfl⟩
    · exact .inr ⟨_, rfl⟩
    · exact .inl rfl

/-- What stands in front in an escaped text, up to an entity, stands in front in the text. -/
theorem exists_of_escapeStrictly_eq_append {s front behind : List Char} (hfront : '&' ∉ front)
    (h : escapeStrictly s = front ++ behind) :
    ∃ rest, s = front ++ rest ∧ behind = escapeStrictly rest := by
  induction front generalizing s with
  | nil => exact ⟨s, rfl, h.symm⟩
  | cons c front ih =>
    obtain ⟨hc, hrest⟩ := not_or.mp (fun hmem => hfront (List.mem_cons.mpr hmem))
    cases s with
    | nil => cases h
    | cons d s =>
      rw [escapeStrictly, List.flatMap_cons, ← escapeStrictly] at h
      obtain hself | ⟨tail, hentity⟩ := escapeCharStrictly_eq_cases d
      · rw [hself] at h
        obtain ⟨rfl, htail⟩ := List.cons.inj h
        obtain ⟨rest, rfl, hbehind⟩ := ih hrest htail
        exact ⟨rest, rfl, hbehind⟩
      · rw [hentity] at h
        exact absurd (List.cons.inj h).1 hc

theorem tokensOfAll_infix_element (name : String) (attributes : List Attribute)
    (children : List Markup) :
    tokensOfAll children <:+: tokensOfAll [element name attributes children] := by
  rw [Body.tokensOfAll_singleton, tokens]
  exact (List.prefix_append _ _).isInfix.trans (List.suffix_cons _ _).isInfix

end Markup

/-! ### Texts in the tokens of a message -/

namespace Node

/-- Whether a node is a text, or has it as its content. -/
def Shows (content : String) (node : Node) : Prop :=
  node = .text content ∨ node.content? = some (.text content)

theorem tokensOfAll_infix_html (resolver : Resolver) {node : Node} {content : Content}
    (h : node.content? = some content) :
    tokensOfAll (htmlOfContent resolver content) <:+: tokensOfAll (html resolver node) := by
  cases node with
  | text | lineBreak | mention | broadcast | emoji | timestamp => cases h
  | emoticon content =>
    cases h
    rw [html]
  | blockQuote content | inlineCode content =>
    cases h
    rw [html]
    exact Markup.tokensOfAll_infix_element _ _ _
  | styled style content =>
    cases h
    rw [html]
    cases style <;> exact Markup.tokensOfAll_infix_element _ _ _
  | codeBlock language content =>
    cases h
    rw [html]
    exact (Markup.tokensOfAll_infix_element _ _ _).trans (Markup.tokensOfAll_infix_element _ _ _)
  | link target content | url target content =>
    cases h
    rw [html]
    split
    · exact Markup.tokensOfAll_infix_element _ _ _
    · exact List.infix_rfl
  | unknown kind content? =>
    cases h
    rw [html, tokensOfAll, tokensOfAll, ← List.append_assoc]
    exact (List.suffix_append _ _).isInfix

end Node

namespace Body

open Markup (separatorChar)
open Text (dropTail isBlank trim trimStart trimEnd)

mutual

theorem tokensOfAll_infix_html {resolver : Resolver} {around : List Node}
    {place : Node × List Node} (node : Node) (h : place ∈ places around node) :
    tokensOfAll (Node.html resolver place.1) <:+: tokensOfAll (Node.html resolver node) := by
  rw [places_eq] at h
  obtain rfl | h := List.mem_cons.mp h
  · exact List.infix_rfl
  · cases hcontent : node.content? with
    | none => rw [hcontent] at h; cases h
    | some inner =>
      rw [hcontent] at h
      have := Node.sizeOf_lt_of_content? hcontent
      exact (tokensOfAll_infix_htmlOfContent inner h).trans
        (Node.tokensOfAll_infix_html resolver hcontent)
termination_by sizeOf node

theorem tokensOfAll_infix_htmlOfContent {resolver : Resolver} {around : List Node}
    {place : Node × List Node} (inner : Content) (h : place ∈ placesOfContent around inner) :
    tokensOfAll (Node.html resolver place.1) <:+:
      tokensOfAll (Node.htmlOfContent resolver inner) := by
  cases inner with
  | text => cases h
  | nodes nodes => exact tokensOfAll_infix_htmlOfAll nodes h
termination_by sizeOf inner

/-- What a node at any place of a tree prints stands in what the tree prints. -/
theorem tokensOfAll_infix_htmlOfAll {resolver : Resolver} {around : List Node}
    {place : Node × List Node} (nodes : List Node) (h : place ∈ placesOfAll around nodes) :
    tokensOfAll (Node.html resolver place.1) <:+:
      tokensOfAll (Node.htmlOfAll resolver nodes) := by
  cases nodes with
  | nil => cases h
  | cons node rest =>
    have hsplit : tokensOfAll (Node.html resolver node) <:+:
          tokensOfAll (Node.htmlOfAll resolver (node :: rest)) ∧
        tokensOfAll (Node.htmlOfAll resolver rest) <:+:
          tokensOfAll (Node.htmlOfAll resolver (node :: rest)) := by
      cases rest with
      | nil => exact ⟨List.infix_rfl, List.nil_infix⟩
      | cons next rest =>
        rw [Node.htmlOfAll, Markup.tokensOfAll_append, tokensOfAll]
        · exact ⟨(List.prefix_append _ _).isInfix,
            ((List.suffix_append _ _).trans (List.suffix_append _ _)).isInfix⟩
        · simp
    obtain hnode | hrest := List.mem_append.mp h
    · exact (tokensOfAll_infix_html node hnode).trans hsplit.1
    · exact (tokensOfAll_infix_htmlOfAll rest hrest).trans hsplit.2
termination_by sizeOf nodes

end

theorem infix_tokensOfAll_of_shows (resolver : Resolver) {node : Node} {content : String}
    (h : node.Shows content) :
    (escapeStrictly content.toList).map .char <:+: tokensOfAll (Node.html resolver node) := by
  obtain rfl | hcontent := h
  · rw [Node.html, tokensOfAll_singleton]
    exact List.infix_rfl
  · refine List.IsInfix.trans ?_ (Node.tokensOfAll_infix_html resolver hcontent)
    rw [Node.htmlOfContent, tokensOfAll_singleton]
    exact List.infix_rfl

/-! ### Texts in lines -/

theorem exists_cut_append {front : List Token} (hbreak : .opening .lineBreak ∉ front) (depth : Nat)
    (rest : List Token) : ∃ first lines, cut depth (front ++ rest) = (front ++ first) :: lines := by
  induction front generalizing depth with
  | nil =>
    obtain ⟨first, lines, hcut⟩ := List.exists_cons_of_ne_nil (cut_ne_nil depth rest)
    exact ⟨first, lines, hcut⟩
  | cons token front ih =>
    obtain ⟨htoken, hfront⟩ := not_or.mp (fun hmem => hbreak (List.mem_cons.mpr hmem))
    obtain ⟨first, lines, hcut⟩ := ih hfront (depthAfter token depth)
    refine ⟨first, lines, ?_⟩
    rw [List.cons_append, cut, if_neg fun h => htoken h.2.symm, hcut]
    rfl

/-- What holds no line break is not cut. -/
theorem exists_infix_of_mem_cut {part tokens : List Token} (hbreak : .opening .lineBreak ∉ part)
    (h : part <:+: tokens) (depth : Nat) : ∃ row ∈ cut depth tokens, part <:+: row := by
  induction tokens generalizing depth with
  | nil => exact ⟨[], List.mem_singleton_self [], h⟩
  | cons token rest ih =>
    obtain hstart | hbehind := List.infix_cons_iff.mp h
    · obtain ⟨behind, heq⟩ := hstart
      obtain ⟨first, lines, hcut⟩ := exists_cut_append hbreak depth behind
      rw [← heq, hcut]
      exact ⟨_, List.mem_cons_self, (List.prefix_append part first).isInfix⟩
    · rw [cut]
      split
      · obtain ⟨row, hrow, hpart⟩ := ih hbehind 0
        exact ⟨row, List.mem_cons_of_mem _ hrow, hpart⟩
      · obtain ⟨row, hrow, hpart⟩ := ih hbehind (depthAfter token depth)
        cases hcut : cut (depthAfter token depth) rest with
        | nil => exact absurd hcut (cut_ne_nil _ _)
        | cons line lines =>
          rw [hcut] at hrow
          obtain rfl | hrow := List.mem_cons.mp hrow
          · exact ⟨token :: row, List.mem_cons_self,
              hpart.trans (List.suffix_cons token row).isInfix⟩
          · exact ⟨row, List.mem_cons_of_mem _ hrow, hpart⟩

/-- A row of tokens without a line break stands in a line of the printed message. -/
theorem exists_infix_line (resolver : Resolver) {nodes : List Node} {part : List Token}
    (hbreak : .opening .lineBreak ∉ part)
    (h : part <:+: tokensOfAll (Node.htmlOfAll resolver nodes)) :
    ∃ line ∈ lines (raw resolver nodes), Token.printAll part <:+: line := by
  obtain ⟨row, hrow, before, behind, hpart⟩ := exists_infix_of_mem_cut hbreak h 0
  rw [lines_raw]
  refine ⟨Token.printAll row, List.mem_map_of_mem hrow, ?_⟩
  rw [← hpart, Token.printAll_append, Token.printAll_append]
  exact ⟨Token.printAll before, Token.printAll behind, rfl⟩

/-- Each text of a tree stands in a line of the printed message. -/
theorem exists_escapeStrictly_infix_line (resolver : Resolver) {nodes : List Node}
    {content : String} (h : ∃ place ∈ placesOfAll [] nodes, place.1.Shows content) :
    ∃ line ∈ lines (raw resolver nodes), escapeStrictly content.toList <:+: line := by
  obtain ⟨place, hplace, hshows⟩ := h
  have hbreak : .opening .lineBreak ∉ (escapeStrictly content.toList).map Token.char := by
    intro hmem
    obtain ⟨c, -, heq⟩ := List.mem_map.mp hmem
    cases heq
  obtain ⟨line, hline, hpart⟩ := exists_infix_line resolver hbreak
    ((infix_tokensOfAll_of_shows resolver hshows).trans (tokensOfAll_infix_htmlOfAll nodes hplace))
  rw [Token.printAll_map_char] at hpart
  exact ⟨line, hline, hpart⟩

/-! ### Texts that are thinned -/

/-- Whether a text holds another one, thinned. -/
def HoldsThinned (part s : List Char) : Prop := ∃ kept, Thins part kept ∧ kept <:+: s

theorem Thins.exists_of_append {a b t : List Char} (h : Thins (a ++ b) t) :
    ∃ a' b', t = a' ++ b' ∧ Thins a a' ∧ Thins b b' := by
  induction a generalizing t with
  | nil => exact ⟨[], t, rfl, .nil, h⟩
  | cons c a ih =>
    cases h with
    | keep _ h =>
      obtain ⟨a', b', rfl, ha, hb⟩ := ih h
      exact ⟨c :: a', b', rfl, ha.keep c, hb⟩
    | drop hc h =>
      obtain ⟨a', b', rfl, ha, hb⟩ := ih h
      exact ⟨a', b', rfl, ha.drop hc, hb⟩
    | space hc h =>
      obtain ⟨a', b', rfl, ha, hb⟩ := ih h
      exact ⟨' ' :: a', b', rfl, ha.space hc, hb⟩

theorem HoldsThinned.trans {part s t : List Char} (h : HoldsThinned part s) (hst : Thins s t) :
    HoldsThinned part t := by
  obtain ⟨kept, hkept, before, behind, rfl⟩ := h
  obtain ⟨front, behind', rfl, hfront, -⟩ := hst.exists_of_append
  obtain ⟨before', kept', rfl, -, hkept'⟩ := hfront.exists_of_append
  exact ⟨kept', hkept.trans hkept', ⟨before', behind', rfl⟩⟩

theorem thins_dropTail {p : Char → Bool} (hp : ∀ c, p c = true → isFiller c = true)
    (s : List Char) : Thins s (dropTail p s) := by
  obtain ⟨tail, hs, htail⟩ := Text.dropTail_append_eq p s
  have happend := (Thins.refl (dropTail p s)).append (.of_fillers fun c hc => hp c (htail c hc))
  rwa [← hs, List.append_nil] at happend

theorem thins_stripSeparators (s : List Char) : Thins s (stripSeparators s) := by
  induction s with
  | nil => exact .nil
  | cons c s ih =>
    by_cases hc : c = separatorChar
    · subst hc
      exact ih.drop (by decide)
    · rw [stripSeparators_cons_of_ne hc]
      exact ih.keep c

theorem thins_compactFrom (depth : Nat) (inRun : Bool) (s : List Char) :
    Thins s (compactFrom depth inRun s) := by
  induction s generalizing depth inRun with
  | nil => exact .nil
  | cons c s ih =>
    rw [compactFrom]
    split
    · next hblank =>
      have hfiller := isFiller_of_isBlank hblank.2
      cases inRun with
      | true => exact (ih _ true).drop hfiller
      | false => exact (ih _ true).space hfiller
    · exact (ih _ false).keep c

theorem thins_trim (s : List Char) : Thins s (trim s) := by
  have hhead : Thins (s.takeWhile isBlank) [] := .of_fillers fun c hc =>
    isFiller_of_isBlank (List.all_eq_true.mp List.all_takeWhile c hc)
  have hstart := hhead.append (Thins.refl (trimStart s))
  rw [trimStart, List.takeWhile_append_dropWhile, List.nil_append, ← trimStart] at hstart
  exact hstart.trans (thins_dropTail (fun _ => isFiller_of_isBlank) (trimStart s))

/-- Whether a character may be taken out with the sign at the front of a line. -/
def isOfSign (c : Char) : Bool := isFiller c || c == '#' || c == '-'

/-- A printed line holds the line but for some of its front and of the fillers at its end. -/
theorem exists_print_classify (line : List Char) (next? : Option (List Char)) :
    ∃ gone rest tail front behind, line = gone ++ (rest ++ tail) ∧
      (∀ c ∈ gone, isOfSign c = true) ∧ (∀ c ∈ tail, isFiller c = true) ∧
      (classify line next?).print = front ++ rest ++ behind := by
  have hpromoted : ∀ {sign body : List Char} {front behind : List Char},
      (∀ c ∈ sign, isOfSign c = true) →
      behindSign? sign (line.dropWhile isFiller) = some body →
      ∃ gone rest tail front' behind', line = gone ++ (rest ++ tail) ∧
        (∀ c ∈ gone, isOfSign c = true) ∧ (∀ c ∈ tail, isFiller c = true) ∧
        front ++ body ++ behind = front' ++ rest ++ behind' := by
    intro sign body front behind hsign hbody
    obtain ⟨blank, rest, hline, hblank, -, -, rfl⟩ := behindSign?_eq_some_iff.mp hbody
    obtain ⟨tail, hrest, htail⟩ := Text.dropTail_append_eq isFiller rest
    refine ⟨line.takeWhile isFiller ++ (sign ++ [blank]), dropTail isFiller rest, tail, front, behind,
      ?_, fun c hc => ?_, htail, rfl⟩
    · calc line
        _ = line.takeWhile isFiller ++ line.dropWhile isFiller :=
          List.takeWhile_append_dropWhile.symm
        _ = _ := by rw [hline, ← hrest]; simp only [List.append_assoc, List.singleton_append]
    · obtain hc | hc := List.mem_append.mp hc
      · have hfiller : isFiller c = true := List.all_eq_true.mp List.all_takeWhile c hc
        rw [isOfSign, hfiller]
        rfl
      · obtain hc | hc := List.mem_append.mp hc
        · exact hsign c hc
        · rw [List.mem_singleton.mp hc, isOfSign, isFiller_of_isBlank hblank]
          rfl
  cases hclass : classify line next? with
  | heading level body =>
    have hbody := heading?_eq_some_iff.mp (classify_eq_heading_iff.mp hclass)
    have hlevel : level.sign.all isOfSign = true := by cases level <;> decide
    exact hpromoted (List.all_eq_true.mp hlevel) hbody
  | sub body => exact hpromoted (List.all_eq_true.mp (by decide)) (classify_eq_sub_iff.mp hclass).1
  | plain text =>
    rw [eq_of_classify_eq_plain hclass]
    refine ⟨[], line, [], [], [], ?_, List.forall_mem_nil _, List.forall_mem_nil _, ?_⟩
    · rw [List.nil_append, List.append_nil]
    · rw [List.nil_append, List.append_nil]
      rfl

/-- A printed line holds the line but for some of its front, thinned. -/
theorem exists_holdsThinned_classify (line : List Char) (next? : Option (List Char)) :
    ∃ gone rest, line = gone ++ rest ∧ (∀ c ∈ gone, isOfSign c = true) ∧
      HoldsThinned rest (classify line next?).print := by
  obtain ⟨gone, rest, tail, front, behind, hline, hgone, htail, hprint⟩ :=
    exists_print_classify line next?
  refine ⟨gone, rest ++ tail, hline, hgone, rest, ?_, front, behind, hprint.symm⟩
  have happend := (Thins.refl rest).append (.of_fillers htail)
  rwa [List.append_nil] at happend

theorem print_infix_printAll {line : Line} {all : List Line} (h : line ∈ all) :
    line.print <:+: Line.printAll all := by
  induction all with
  | nil => cases h
  | cons first rest ih =>
    obtain ⟨between, -, hprint⟩ := exists_printAll_cons first rest
    rw [hprint]
    obtain rfl | hrest := List.mem_cons.mp h
    · exact (List.prefix_append _ _).isInfix
    · exact (ih hrest).trans ((List.suffix_append _ _).trans (List.suffix_append _ _)).isInfix

theorem exists_classify_mem {all : List (List Char)} {line : List Char} (h : line ∈ all) :
    ∃ next?, classify line next? ∈ classifyAll all := by
  induction all with
  | nil => cases h
  | cons first rest ih =>
    obtain rfl | hrest := List.mem_cons.mp h
    · exact ⟨rest.head?, List.mem_cons_self⟩
    · exact (ih hrest).imp fun _ hmem => List.mem_cons_of_mem _ hmem

theorem thins_render (resolver : Resolver) (nodes : List Node) :
    Thins (Line.printAll (promotedLines resolver nodes)) (render resolver nodes) :=
  (thins_stripSeparators _).trans ((thins_compactFrom 0 false _).trans (thins_trim _))

/-- The body holds each text of the tree but for some of its front, thinned. -/
theorem exists_infix_render (resolver : Resolver) {nodes : List Node} {content : String}
    (h : ∃ place ∈ placesOfAll [] nodes, place.1.Shows content) :
    ∃ gone left, content.toList = gone ++ left ∧ (∀ c ∈ gone, isOfSign c = true) ∧
      HoldsThinned (escapeStrictly left) (render resolver nodes) := by
  obtain ⟨line, hline, hpart⟩ := exists_escapeStrictly_infix_line resolver h
  obtain ⟨next?, hmem⟩ := exists_classify_mem hline
  obtain ⟨gone, rest, rfl, hgone, kept, hkept, hprint⟩ := exists_holdsThinned_classify line next?
  obtain ⟨front, behind, hcontent, hfront, hbehind⟩ := Text.exists_eq_append_of_infix_append hpart
  have hfront : ∀ c ∈ front, isOfSign c = true := fun c hc => hgone c (hfront.mem hc)
  obtain ⟨left, hleft, rfl⟩ := Markup.exists_of_escapeStrictly_eq_append
    (fun hmem => absurd (hfront '&' hmem) (by decide)) hcontent
  have hline : HoldsThinned (escapeStrictly left) kept :=
    .trans ⟨_, .refl _, hbehind⟩ hkept
  obtain ⟨kept', hkept', hheld⟩ := hline
  have hall : HoldsThinned (escapeStrictly left) (Line.printAll (promotedLines resolver nodes)) :=
    ⟨kept', hkept', hheld.trans (hprint.trans (print_infix_printAll hmem))⟩
  exact ⟨front, left, hleft, hfront, hall.trans (thins_render resolver nodes)⟩

end Body

end Gazette
