import Gazette.Document.Basic
import Gazette.Proofs.Body.Nodes
import Gazette.Proofs.Time.LongForm

/-!
# Timestamps keep their second

A second that can be represented is written as a universal date and time, and documents that hold
what is written there hold the same second; written out in full, no two seconds look alike. One that
cannot be represented is shown as it is, in plain text (`timestamps_keep_seconds`).
-/

namespace Gazette.Time

open Body (mem_escapeStrictly)
open Node (html)

/-! ### Seconds in range -/

theorem ofSeconds?_of_inRange {seconds : Int} (h : Instant.InRange seconds) :
    Instant.ofSeconds? seconds = some ⟨seconds, 0⟩ := if_pos h

theorem presentation_long {seconds : Int} (h : Instant.InRange seconds) :
    presentation seconds "F" = Pattern.longDateTime.format ⟨seconds, 0⟩ := by
  rw [presentation, ofSeconds?_of_inRange h]
  rfl

/-! ### Seconds out of range -/

/-- A second and a presentation code as they are. -/
def asWritten (seconds : Int) (code : String) : List Char :=
  Text.intDigits seconds ++ " (".toList ++ code.toList ++ ")".toList

variable {seconds : Int}

theorem ofSeconds?_eq_none (h : ¬Instant.InRange seconds) : Instant.ofSeconds? seconds = none :=
  if_neg h

theorem isoText?_eq_none (h : ¬Instant.InRange seconds) : isoText? seconds = none := by
  rw [isoText?, ofSeconds?_eq_none h, Option.map_none]

theorem presentation_eq_asWritten (h : ¬Instant.InRange seconds) (code : String) :
    presentation seconds code = asWritten seconds code := by
  rw [presentation, ofSeconds?_eq_none h]
  cases Pattern.ofCode? code <;> rfl

theorem printAll_html_timestamp (h : ¬Instant.InRange seconds) (resolver : Resolver) (code : String) :
    Markup.printAll (html resolver (.timestamp seconds code)) =
      Markup.escapeStrictly (asWritten seconds code) := by
  have hmarkup : Node.timeMarkup seconds code =
      .message (String.ofList (asWritten seconds code)) := by
    rw [← presentation_eq_asWritten h, Node.timeMarkup, isoText?_eq_none h]
  rw [html, hmarkup]
  simp [Markup.printAll, Markup.print]

/-! ### All seconds -/

/-- A second in range has a universal date and time, and a document that was created then was created
at this second; and two such seconds that look alike in full are the same. A second out of range has
no universal date and time. Under any code it is shown as it is, and no element begins there. -/
theorem timestamps_keep_seconds :
    (∀ seconds, Instant.InRange seconds → ∃ iso, isoText? seconds = some iso ∧
      Instant.decoder.ofJson? (.string (String.ofList iso)) = some ⟨seconds, 0⟩) ∧
    (∀ a b, Instant.InRange a → Instant.InRange b →
      presentation a "F" = presentation b "F" → a = b) ∧
    ∀ seconds, ¬Instant.InRange seconds →
      isoText? seconds = none ∧
      ∀ resolver code,
        Markup.printAll (html resolver (.timestamp seconds code)) =
          Markup.escapeStrictly (asWritten seconds code) ∧
        '<' ∉ Markup.printAll (html resolver (.timestamp seconds code)) := by
  refine ⟨fun seconds h => ?_, fun a b ha hb h => ?_, fun seconds h => ?_⟩
  · refine ⟨Pattern.isoDateTime.format ⟨seconds, 0⟩, ?_, ?_⟩
    · rw [isoText?, ofSeconds?_of_inRange h, Option.map_some]
    · change Instant.read? (String.ofList _).toList = _
      rw [String.toList_ofList]
      exact read?_isoDateTime rfl h
  · rw [presentation_long ha, presentation_long hb] at h
    exact seconds_eq_of_longDateTime rfl rfl h
  · refine ⟨isoText?_eq_none h, fun resolver code => ⟨printAll_html_timestamp h resolver code, ?_⟩⟩
    rw [printAll_html_timestamp h]
    exact fun hmem => (mem_escapeStrictly hmem).1 rfl

/-- The first second of all, noon and midnight of one day, and the last second of a signed word. -/
theorem timestamps_keep_seconds_first :
    Instant.InRange Instant.firstSecond ∧
      isoText? Instant.firstSecond = some "-262143-01-01T00:00:00Z".toList ∧
      Instant.decoder.ofJson? (.string "-262143-01-01T00:00:00Z") =
        some ⟨Instant.firstSecond, 0⟩ ∧
      Instant.InRange 0 ∧ Instant.InRange 43200 ∧
      presentation 0 "F" = "January 1, 1970 at 12:00:00 AM".toList ∧
      presentation 0 "F" ≠ presentation 43200 "F" ∧
      ¬Instant.InRange Int64.maxValue.toInt ∧
      Markup.printAll (html Entities.empty.resolver (.timestamp Int64.maxValue.toInt "<")) =
        "9223372036854775807 (&lt;)".toList := by
  obtain ⟨hkept, htold, hplain⟩ := timestamps_keep_seconds
  have hfirst : Instant.InRange Instant.firstSecond := by decide
  have hmidnight : Instant.InRange 0 := by decide
  have hnoon : Instant.InRange 43200 := by decide
  have hlarge : ¬Instant.InRange Int64.maxValue.toInt := by decide
  have htext : isoText? Instant.firstSecond = some "-262143-01-01T00:00:00Z".toList := by decide
  obtain ⟨iso, hiso, hread⟩ := hkept Instant.firstSecond hfirst
  obtain rfl : iso = "-262143-01-01T00:00:00Z".toList := Option.some.inj (hiso.symm.trans htext)
  refine ⟨hfirst, htext, hread, hmidnight, hnoon, by decide, fun h => ?_, hlarge, ?_⟩
  · exact absurd (htold 0 43200 hmidnight hnoon h) (by decide)
  · obtain ⟨-, hshown⟩ := hplain Int64.maxValue.toInt hlarge
    rw [(hshown Entities.empty.resolver "<").1]
    decide

end Gazette.Time
