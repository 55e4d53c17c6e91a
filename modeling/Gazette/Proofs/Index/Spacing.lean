import Gazette.Proofs.Index.Matching
import Gazette.Proofs.Text.Sigmas

/-!
# Blanks in a query

A query is lowercased before its blanks are taken out, and a blank ends a word. So two queries that are
equal but for blanks find the same if and only if the same of their capital sigmas end a word; the
normalized forms of other ones differ in the forms of small sigmas (`hits_eq_iff`).
-/

namespace Gazette

open Markup (escapeStrictly escapeCharStrictly)
open Text (isBlank lowercaseWith sigmaEnds)
open Text.Casing (foldSigma lowerChar)

namespace Search

/-! ### Normalized texts -/

theorem normalize_eq_lowercaseWith (s : List Char) :
    normalize s = lowercaseWith (sigmaEnds s) (s.filter (!isBlank ·)) := by
  rw [normalize, Text.lowercase, Text.lowercaseFrom_eq_lowercaseWith, Text.filter_lowercaseWith]
  rfl

theorem count_sigma_filter (s : List Char) : (s.filter (!isBlank ·)).count 'Σ' = s.count 'Σ' :=
  List.count_filter (by decide)

/-- Texts that are equal but for blanks are normalized to the same if the same sigmas end a word. -/
theorem normalize_eq_iff {s t : List Char} (h : s.filter (!isBlank ·) = t.filter (!isBlank ·)) :
    normalize s = normalize t ↔ sigmaEnds s = sigmaEnds t := by
  rw [normalize_eq_lowercaseWith, normalize_eq_lowercaseWith, h]
  constructor
  · refine Text.lowercaseWith_injective ?_ ?_
    · rw [← h, count_sigma_filter]
      exact Text.length_sigmaEndsFrom false s
    · rw [count_sigma_filter]
      exact Text.length_sigmaEndsFrom false t
  · intro heq
    rw [heq]

theorem map_foldSigma_normalize_congr {s t : List Char}
    (h : s.filter (!isBlank ·) = t.filter (!isBlank ·)) :
    (normalize s).map foldSigma = (normalize t).map foldSigma := by
  rw [normalize_eq_lowercaseWith, normalize_eq_lowercaseWith, h]
  exact Text.map_foldSigma_lowercaseWith _ _ _

theorem normalize_eq_self {s : List Char} (h : ∀ c ∈ s, lowerChar c = [c] ∧ isBlank c = false) :
    normalize s = s := by
  have hsigma : 'Σ' ∉ s := fun hmem => absurd (h 'Σ' hmem).1 (by decide +kernel)
  have hforms : s.flatMap lowerChar = s.flatMap fun c => [c] :=
    List.flatMap_congr fun c hc => (h c hc).1
  rw [normalize_of_notMem hsigma, hforms, List.flatMap_singleton']
  exact List.filter_eq_self.mpr fun c hc => by rw [(h c hc).2]; rfl

/-! ### What is looked for -/

theorem needle_eq_iff {query other : String} :
    needle query = needle other ↔ normalize query.toList = normalize other.toList := by
  refine ⟨fun h => ?_, congrArg escapeStrictly⟩
  have hunescape := congrArg Markup.unescape h
  rwa [needle, needle, Markup.unescape_eq (Markup.escapes_escapeStrictly _),
    Markup.unescape_eq (Markup.escapes_escapeStrictly _)] at hunescape

/-- What is looked for is normalized already, with its entities. -/
theorem normalize_needle (query : String) : normalize (needle query) = needle query := by
  refine normalize_eq_self fun c hc => ?_
  obtain ⟨d, hd, hc⟩ := List.mem_flatMap.mp hc
  by_cases hspecial : d ∈ Markup.specials
  · have hall : (Markup.specials.all fun d => (escapeCharStrictly d).all fun c =>
        lowerChar c == [c] && !isBlank c) = true := by decide +kernel
    have hchar := List.all_eq_true.mp (List.all_eq_true.mp hall d hspecial) c hc
    simpa using hchar
  · rw [Markup.escapeCharStrictly_of_notMem hspecial, List.mem_singleton] at hc
    subst hc
    obtain ⟨hlower, hblank⟩ := List.mem_filter.mp hd
    rw [Text.lowercase, Text.lowercaseFrom_eq_lowercaseWith] at hlower
    exact ⟨Text.lowerChar_of_mem_lowercaseWith hlower, by simpa using hblank⟩

/-- A post that shows what is looked for. -/
def poster (query : String) : Post := { (default : Post) with card := String.ofList (needle query) }

theorem mem_hits_poster {query other : String} :
    poster other ∈ hits [poster other] query ↔
      needle query ≠ [] ∧ needle query <:+: needle other := by
  have hcard : withoutByline (needle other) = needle other := by
    refine withoutByline_eq_self fun byline rest heq ⟨blanks, inner, _, _, hbyline⟩ => ?_
    have hopen : '<' ∉ needle other := fun hmem => (Body.mem_escapeStrictly hmem).1 rfl
    refine hopen ?_
    rw [heq, hbyline]
    simp
  rw [mem_hits_iff, poster, String.toList_ofList, hcard, normalize_needle, Text.isPart_iff]
  exact and_iff_right (List.mem_singleton_self _)

/-- Two queries that are equal but for blanks are looked for as texts that are equal but for the forms
of small sigmas. They find the same posts, whatever posts there are, if and only if each capital sigma
ends a word in both of them or in none; so it is if they have none. -/
theorem hits_eq_iff {query other : String}
    (h : query.toList.filter (!isBlank ·) = other.toList.filter (!isBlank ·)) :
    (needle query).map foldSigma = (needle other).map foldSigma ∧
      ((∀ posts, hits posts query = hits posts other) ↔
        sigmaEnds query.toList = sigmaEnds other.toList) := by
  have hfold : (needle query).map foldSigma = (needle other).map foldSigma := by
    rw [needle, needle, map_foldSigma_escapeStrictly, map_foldSigma_escapeStrictly,
      map_foldSigma_normalize_congr h]
  refine ⟨hfold, fun hsame => ?_, fun hends posts => ?_⟩
  · have hlength : (needle query).length = (needle other).length := by
      simpa using congrArg List.length hfold
    refine (normalize_eq_iff h).mp (needle_eq_iff.mp ?_)
    by_cases hnil : needle query = []
    · rw [hnil] at hlength ⊢
      exact (List.length_eq_zero_iff.mp hlength.symm).symm
    · -- The post that shows the one query is found by the other one.
      have hfound : poster query ∈ hits [poster query] query :=
        mem_hits_poster.mpr ⟨hnil, List.infix_rfl⟩
      rw [hsame] at hfound
      exact ((mem_hits_poster.mp hfound).2.eq_of_length hlength.symm).symm
  · have hneedle := needle_eq_iff.mpr ((normalize_eq_iff h).mpr hends)
    rw [hits, hits, hneedle]

theorem hits_eq_iff_words :
    "ΟΔΟΣ ΣΟΦΟΥ".toList.filter (!isBlank ·) = " ΟΔΟΣ\tΣΟ ΦΟΥ".toList.filter (!isBlank ·) ∧
      ∀ posts, hits posts "ΟΔΟΣ ΣΟΦΟΥ" = hits posts " ΟΔΟΣ\tΣΟ ΦΟΥ" := by
  have hblank : "ΟΔΟΣ ΣΟΦΟΥ".toList.filter (!isBlank ·) =
      " ΟΔΟΣ\tΣΟ ΦΟΥ".toList.filter (!isBlank ·) := by decide
  exact ⟨hblank, (hits_eq_iff hblank).2.mpr (by decide +kernel)⟩

/-- A blank makes a query miss a post that is found without it. -/
theorem not_mem_hits_of_blank :
    "ΑΣΑ".toList.filter (!isBlank ·) = "ΑΣ Α".toList.filter (!isBlank ·) ∧
      tale [.text "ΑΣΑ"] ∈ hits [tale [.text "ΑΣΑ"]] "ΑΣΑ" ∧
      tale [.text "ΑΣΑ"] ∉ hits [tale [.text "ΑΣΑ"]] "ΑΣ Α" := by
  refine ⟨by decide, mem_hits_tale (List.mem_singleton_self _) (by decide +kernel)
    (by decide +kernel), fun hmem => ?_⟩
  obtain ⟨-, -, hpart⟩ := mem_hits_iff.mp hmem
  rw [tale, withoutByline_card] at hpart
  exact absurd hpart (by decide +kernel)

end Search

end Gazette
