import Gazette.Proofs.Body.Visible
import Gazette.Proofs.Index.Building
import Gazette.Proofs.Index.Finding
import Gazette.Proofs.Markup.Aligning

/-!
# What a hit has matched

A search looks at bodies as they are stored, so it may match markup: a tag, or the inside of an
entity. Words end at tags, and an escaped query holds no angle bracket, so whatever else it matches
is a part of the visible text (`exists_matches_of_mem_hits`). The two forms of a small sigma do not
count there, since a tag ends a word that goes on in the visible text.
-/

namespace Gazette

open Body (IsWritten noSign signOf untag visible)
open Markup (BeginsInEntity Escapes entities escapeStrictly escapeCharStrictly)
open Text (isBlank)
open Text.Casing (eq_of_mem_lowerChar foldSigma isFixed isWordEnd lowerChar lowerChar_of_isFixed)

namespace Search

/-! ### Words end at tags -/

/-- Whether texts are normalized apart in front of a character and behind it. -/
def isBoundary (c : Char) : Bool := isWordEnd c && isFixed c && !isBlank c && c != 'Σ'

theorem normalize_append_cons {c : Char} (hc : isBoundary c = true) (s t : List Char) :
    normalize (s ++ c :: t) = normalize s ++ c :: normalize t := by
  simp only [isBoundary, Bool.and_eq_true, bne_iff_ne] at hc
  obtain ⟨⟨⟨hend, hfixed⟩, hblank⟩, hsigma⟩ := hc
  have hkeep : ∀ rest, (c :: rest).filter (!isBlank ·) = c :: rest.filter (!isBlank ·) :=
    fun _ => List.filter_cons_of_pos hblank
  rw [normalize, Text.lowercase, Text.lowercaseFrom_append_cons hend hsigma,
    lowerChar_of_isFixed hfixed, List.filter_append, List.singleton_append, hkeep]
  rfl

/-- A part without angle brackets is found in a tag, or in a text between tags. The induction is on
the tokens, with the text before them generalized. -/
theorem infix_normalize_cases {part : List Char} (hopen : '<' ∉ part) (hclose : '>' ∉ part)
    {tokens : List Token} (h : ∀ token ∈ tokens, token.IsLexical) {front : List Char}
    (hpart : part <:+: normalize (front ++ Token.printAll tokens)) :
    (∃ token ∈ tokens, (∀ c, token ≠ .char c) ∧ part <:+: normalize token.print) ∨
      ∃ s, s <:+: front ++ tokens.flatMap (signOf noSign) ∧ part <:+: normalize s := by
  induction tokens generalizing front with
  | nil =>
    rw [Token.printAll_nil, List.append_nil] at hpart
    exact .inr ⟨front, (List.prefix_append _ _).isInfix, hpart⟩
  | cons token rest ih =>
    obtain ⟨htoken, hrest⟩ := List.forall_mem_cons.mp h
    by_cases hchar : ∃ c, token = .char c
    · obtain ⟨c, rfl⟩ := hchar
      have hmoved : part <:+: normalize ((front ++ [c]) ++ Token.printAll rest) := by
        rw [List.append_assoc]
        exact hpart
      obtain ⟨token, hmem, htag⟩ | ⟨s, hs, hin⟩ := ih hrest hmoved
      · exact .inl ⟨token, List.mem_cons_of_mem _ hmem, htag⟩
      · rw [List.append_assoc] at hs
        exact .inr ⟨s, hs, hin⟩
    · have hnot : ∀ c, token ≠ .char c := fun c heq => hchar ⟨c, heq⟩
      obtain ⟨inside, hprint, -⟩ := Body.print_tag_eq htoken hnot
      have hsplit : front ++ Token.printAll (token :: rest) =
          front ++ '<' :: (inside ++ '>' :: Token.printAll rest) := by
        rw [Token.printAll_cons, hprint]
        simp only [List.append_assoc, List.cons_append, List.nil_append]
      have htag : normalize inside <:+: normalize token.print := by
        have hprint' : token.print = [] ++ '<' :: (inside ++ '>' :: []) := hprint
        rw [hprint', normalize_append_cons (by decide +kernel),
          normalize_append_cons (by decide +kernel)]
        exact ((List.prefix_append _ _).isInfix.trans (List.suffix_cons _ _).isInfix).trans
          (List.suffix_append _ _).isInfix
      rw [hsplit, normalize_append_cons (by decide +kernel),
        normalize_append_cons (by decide +kernel), Text.infix_append_cons_iff hopen,
        Text.infix_append_cons_iff hclose] at hpart
      obtain hfront | hinside | hbehind := hpart
      · exact .inr ⟨front, (List.prefix_append _ _).isInfix, hfront⟩
      · exact .inl ⟨token, List.mem_cons_self, hnot, hinside.trans htag⟩
      · obtain ⟨token', hmem, htag'⟩ | ⟨s, hs, hin⟩ := @ih hrest [] hbehind
        · exact .inl ⟨token', List.mem_cons_of_mem _ hmem, htag'⟩
        · refine .inr ⟨s, hs.trans ?_, hin⟩
          rw [List.flatMap_cons, List.nil_append, ← List.append_assoc]
          exact (List.suffix_append _ _).isInfix

/-! ### Both sigmas as one -/

/-- The normalized form of a text with both small sigmas as one, which goes character by character. -/
def folded (s : List Char) : List Char :=
  ((s.flatMap lowerChar).map foldSigma).filter (!isBlank ·)

theorem isBlank_foldSigma (c : Char) : isBlank (foldSigma c) = isBlank c := by
  unfold foldSigma
  split
  · next h => rw [h]; decide
  · rfl

theorem map_foldSigma_normalize (s : List Char) : (normalize s).map foldSigma = folded s := by
  have hblank : (fun c => !isBlank c) ∘ foldSigma = fun c => !isBlank c :=
    funext fun c => congrArg (!·) (isBlank_foldSigma c)
  rw [folded, ← Text.map_foldSigma_lowercaseFrom false, List.filter_map, hblank]
  rfl

theorem folded_append (s t : List Char) : folded (s ++ t) = folded s ++ folded t := by
  rw [folded, List.flatMap_append, List.map_append, List.filter_append]
  rfl

theorem folded_isInfix {s t : List Char} (h : s <:+: t) : folded s <:+: folded t := by
  obtain ⟨before, behind, rfl⟩ := h
  rw [folded_append, folded_append]
  exact ⟨folded before, folded behind, rfl⟩

theorem escapes_folded {s t : List Char} (h : Escapes s t) : Escapes (folded s) (folded t) := by
  induction h with
  | nil => exact .nil
  | @char c s t hc _ ih =>
    have hnotMem : '&' ∉ folded [c] := by
      intro hmem
      obtain ⟨x, hx, hfold⟩ := List.mem_map.mp (List.mem_filter.mp hmem).1
      have hsame : x = '&' := by
        unfold foldSigma at hfold
        split at hfold
        · exact absurd hfold (by decide)
        · exact hfold
      rw [List.flatMap_singleton] at hx
      exact hc (eq_of_mem_lowerChar (hsame ▸ hx) (by decide))
    have happend : ∀ s, folded (c :: s) = folded [c] ++ folded s := folded_append [c]
    rw [happend s, happend t]
    exact (Escapes.self hnotMem).append ih
  | @entity entity s t c hc _ ih =>
    have hall : ∀ pair ∈ entities, folded pair.1 = pair.1 ∧ folded [pair.2] = [pair.2] := by
      decide +kernel
    obtain ⟨hentity, hchar⟩ := hall _ hc
    have happend : folded (c :: t) = folded [c] ++ folded t := folded_append [c] t
    rw [folded_append, happend, hentity, hchar]
    exact ih.entity hc

theorem map_foldSigma_escapeStrictly (s : List Char) :
    (escapeStrictly s).map foldSigma = escapeStrictly (s.map foldSigma) := by
  induction s with
  | nil => rfl
  | cons c s ih =>
    have hchar : (escapeCharStrictly c).map foldSigma = escapeCharStrictly (foldSigma c) := by
      by_cases hc : c ∈ Markup.specials
      · have hall : (Markup.specials.all fun c =>
            (escapeCharStrictly c).map foldSigma == escapeCharStrictly (foldSigma c)) = true := by
          decide
        exact eq_of_beq (List.all_eq_true.mp hall c hc)
      · have hfold : foldSigma c ∉ Markup.specials := by
          unfold foldSigma
          split
          · decide
          · exact hc
        rw [Markup.escapeCharStrictly_of_notMem hc, Markup.escapeCharStrictly_of_notMem hfold]
        rfl
    rw [escapeStrictly, List.flatMap_cons, List.map_append, hchar, ← escapeStrictly, ih]
    rfl

theorem map_foldSigma_eq_self {s : List Char} (h : 'ς' ∉ s) : s.map foldSigma = s := by
  induction s with
  | nil => rfl
  | cons c s ih =>
    have hc : c ≠ 'ς' := fun heq => h (heq ▸ List.mem_cons_self)
    rw [List.map_cons, ih fun hmem => h (List.mem_cons_of_mem c hmem), foldSigma, if_neg hc]

/-- A part without sigmas does not depend on their form. -/
theorem infix_of_map_foldSigma_infix {part s : List Char} (hmedial : 'σ' ∉ part)
    (hfinal : 'ς' ∉ part) (h : part.map foldSigma <:+: s.map foldSigma) : part <:+: s := by
  obtain ⟨before, behind, heq⟩ := h
  obtain ⟨front, behind', rfl, hfront, -⟩ := List.map_eq_append_iff.mp heq.symm
  obtain ⟨before', found, rfl, -, hfound⟩ := List.map_eq_append_iff.mp hfront
  have hpartSelf := map_foldSigma_eq_self hfinal
  rw [hpartSelf] at hfound
  have hfoundSelf : found.map foldSigma = found := by
    refine map_foldSigma_eq_self fun hmem => hmedial ?_
    rw [← hfound]
    exact List.mem_map.mpr ⟨'ς', hmem, rfl⟩
  rw [← hfound, hfoundSelf]
  exact (List.suffix_append before' found).isInfix.trans (List.prefix_append _ behind').isInfix

/-! ### Hits -/

/-- How a query is found in a body whose tokens are read. -/
inductive Matches (query : String) (body : List Char) (tokens : List Token) : Prop where
  | inTag {token : Token} (hmem : token ∈ tokens) (htag : ∀ c, token ≠ .char c)
    (hpart : needle query <:+: normalize token.print)
  | inEntity (h : BeginsInEntity ((needle query).map foldSigma)
      ((normalize (untag noSign body)).map foldSigma))
  /-- The query is a part of the visible text, if both small sigmas are taken as one letter. -/
  | inText (hfolded : (normalize query.toList).map foldSigma <:+:
      (normalize (visible body)).map foldSigma)
    (hexact : 'σ' ∉ normalize query.toList → 'ς' ∉ normalize query.toList →
      normalize query.toList <:+: normalize (visible body))

theorem exists_read_matches (resolver : Resolver) (nodes : List Node) {query : String}
    (h : needle query <:+: normalize (Markup.lineBreakText ++ Body.render resolver nodes)) :
    ∃ tokens, Token.read? (Markup.lineBreakText ++ Body.render resolver nodes) = some tokens ∧
      Matches query (Body.render resolver nodes) tokens := by
  obtain ⟨tokens, hprint, hwritten⟩ :=
    (Body.prints_lineBreakText).append (Body.prints_render resolver nodes)
  have hlexical : ∀ token ∈ tokens, token.IsLexical := fun token htoken =>
    (hwritten.written token htoken).isLexical
  have hread := Token.read?_printAll tokens hlexical
  have huntag : untag noSign (Body.render resolver nodes) = tokens.flatMap (signOf noSign) := by
    have hall : untag noSign (Token.printAll tokens) = tokens.flatMap (signOf noSign) :=
      Body.untag_printAll hlexical
    rw [hprint, Body.untag_append_of_prints Body.prints_lineBreakText] at hall
    exact hall
  have hopen : '<' ∉ needle query := fun hmem => (Body.mem_escapeStrictly hmem).1 rfl
  have hclose : '>' ∉ needle query := fun hmem => (Body.mem_escapeStrictly hmem).2 rfl
  refine ⟨tokens, hprint ▸ hread, ?_⟩
  rw [← hprint] at h
  obtain ⟨token, hmem, htag, hpart⟩ | ⟨s, hs, hpart⟩ :=
    @infix_normalize_cases _ hopen hclose _ hlexical [] h
  · exact .inTag hmem htag hpart
  · rw [List.nil_append, ← huntag] at hs
    have hfound : (needle query).map foldSigma <:+:
        folded (untag noSign (Body.render resolver nodes)) := by
      have hmap := hpart.map foldSigma
      rw [map_foldSigma_normalize] at hmap
      exact hmap.trans (folded_isInfix hs)
    have hneedle : Escapes ((needle query).map foldSigma)
        ((normalize query.toList).map foldSigma) := by
      rw [needle, map_foldSigma_escapeStrictly]
      exact Markup.escapes_escapeStrictly _
    have hbody := escapes_folded (Body.escapes_untag_render resolver nodes)
    obtain hentity | htext := hneedle.infix_or_beginsInEntity hbody hfound
    · rw [← map_foldSigma_normalize] at hentity
      exact .inEntity hentity
    · rw [← map_foldSigma_normalize] at htext
      exact .inText htext fun hmedial hfinal => infix_of_map_foldSigma_infix hmedial hfinal htext

/-- A post that a search finds in an index has the query in its visible text, or in one of its tags, or
from the inside of an entity on. -/
theorem exists_matches_of_mem_hits {σ : Type} (source : Source σ) (resolver : Resolver)
    (options : PostOptions) (state : σ) {index : Index}
    (hindex : (Index.build source resolver options state).1 = .ok index) {query : String}
    {post : Post} (hpost : post ∈ hits index.posts query) :
    ∃ document, post = (Post.ofDocument resolver options document).1 ∧
      normalize query.toList ≠ [] ∧
      ∃ tokens,
        Token.read? (Markup.lineBreakText ++ Body.render resolver document.nodes) = some tokens ∧
        Matches query (Body.render resolver document.nodes) tokens := by
  obtain ⟨hmem, hne, hpart⟩ := mem_hits_iff.mp hpost
  obtain ⟨documents, rfl⟩ : ∃ documents, index = Index.ofDocuments resolver options documents := by
    unfold Index.build at hindex
    dsimp only at hindex
    cases hfetch : (History.fetchAll source state).1 with
    | error fault => rw [hfetch] at hindex; cases hindex
    | ok documents =>
      rw [hfetch] at hindex
      exact ⟨documents, (Except.ok.inj hindex).symm⟩
  obtain ⟨document, -, -, rfl⟩ := Index.mem_posts_ofDocuments.mp hmem
  rw [withoutByline_card, Text.isPart_iff] at hpart
  refine ⟨document, rfl, fun hnil => hne ?_, exists_read_matches resolver document.nodes hpart⟩
  rw [needle, hnil]
  rfl

def told (nodes : List Node) : Document :=
  ⟨"7", none, ⟨"1", none, "ada"⟩, ⟨0, 0⟩, none, "", nodes, []⟩

/-- The post of `told nodes`. -/
def tale (nodes : List Node) : Post :=
  (Post.ofDocument Entities.empty.resolver ⟨.utc, []⟩ (told nodes)).1

theorem mem_hits_tale {nodes : List Node} {query : String} {posts : List Post}
    (hpost : tale nodes ∈ posts) (hne : needle query ≠ [])
    (h : Text.isPart (needle query)
      (normalize (Markup.lineBreakText ++ Body.render Entities.empty.resolver nodes)) = true) :
    tale nodes ∈ hits posts query := by
  refine mem_hits_iff.mpr ⟨hpost, hne, ?_⟩
  rw [tale, withoutByline_card]
  exact h

theorem exists_matches_of_mem_hits_tale :
    let source := (Archive.ofDocuments "news" [told [.text "Hello & welcome"]]).source
    ∃ index, (Index.build source Entities.empty.resolver ⟨.utc, []⟩ ()).1 = .ok index ∧
      tale [.text "Hello & welcome"] ∈ hits index.posts "O&W" ∧
      ∃ document tokens, tale [.text "Hello & welcome"] =
          (Post.ofDocument Entities.empty.resolver ⟨.utc, []⟩ document).1 ∧
        Matches "O&W" (Body.render Entities.empty.resolver document.nodes) tokens := by
  intro source
  obtain ⟨index, hindex, hmem⟩ := @Index.exists_build_singleton Entities.empty.resolver ⟨.utc, []⟩
    "news" (told [.text "Hello & welcome"]) (by decide)
  have hbuild := congrArg Prod.fst hindex
  have hpost : tale [.text "Hello & welcome"] ∈ hits index.posts "O&W" :=
    mem_hits_tale hmem (by decide +kernel) (by decide +kernel)
  obtain ⟨found, heq, -, tokens, -, hmatches⟩ :=
    exists_matches_of_mem_hits source Entities.empty.resolver ⟨.utc, []⟩ () hbuild hpost
  exact ⟨index, hbuild, hpost, found, tokens, heq, hmatches⟩

/-- Whether a search finds a message although its visible text does not hold the query. -/
def IsMismatch (nodes : List Node) (query : String) : Prop :=
  tale nodes ∈ hits [tale nodes] query ∧
    ¬ normalize query.toList <:+:
      normalize (visible (Body.render Entities.empty.resolver nodes))

/-- Searches find the name of a tag, the name of an entity, and the end of a word that a tag makes. -/
theorem isMismatch_markup :
    IsMismatch [.text "hello"] "br" ∧ IsMismatch [.text "&"] "amp" ∧
      IsMismatch [.text "ΑΣ", .styled .strong (.text "Α")] "ΑΣ" := by
  have hfound {nodes : List Node} {query : String} (hne : needle query ≠ [])
      (hpart : Text.isPart (needle query) (normalize
        (Markup.lineBreakText ++ Body.render Entities.empty.resolver nodes)) = true) :
      tale nodes ∈ hits [tale nodes] query :=
    mem_hits_tale (List.mem_singleton_self _) hne hpart
  exact ⟨⟨hfound (by decide +kernel) (by decide +kernel), by decide +kernel⟩,
    ⟨hfound (by decide +kernel) (by decide +kernel), by decide +kernel⟩,
    ⟨hfound (by decide +kernel) (by decide +kernel), by decide +kernel⟩⟩

end Search

end Gazette
