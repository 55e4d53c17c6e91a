import Gazette.Node.Wire

/-!
# Records keep their kind

One table has the node for the name of each kind, and another the name for each node. They agree,
but for three names that stand for a kind which goes by another name. A record of no known kind, or
without what its kind needs, is an unknown node under the record's own name, and no other record is
(`kind_toNode_and_unknown_iff`).
-/

namespace Gazette.WireNode

/-- Names that no node goes by, each with the name that its nodes go by. -/
def aliases : List (String × String) :=
  [("autolink", "url"), ("newline", "br"), ("twemoji", "emoji")]

/-- The name that nodes go by whose record has this name. -/
def nodeName (name : String) : String := (aliases.lookup name).getD name

/-- The names of the kinds that need nothing else. -/
def freeNames : List String :=
  ["link", "url", "autolink", "blockQuote", "br", "newline", "here", "everyone", "codeBlock",
    "inlineCode", "em", "strong", "underline", "strikethrough", "spoiler", "emoticon", "emoji",
    "twemoji"]

/-- Whether the record is of a known kind and has what its kind needs. -/
inductive IsComplete (wire : WireNode) : Prop
  | free (hname : wire.kind ∈ freeNames)
  | text (content : String) (hname : wire.kind = "text")
    (hcontent : wire.content = some (.text content))
  | mention (reference : Reference) (id : String) (hname : wire.kind = reference.name)
    (hid : wire.id = some id)
  | timestamp (seconds : Int) (hname : wire.kind = "timestamp")
    (htime : wire.time.bind WireTime.seconds? = some seconds)

variable {wire : WireNode}

/-! ### The node for each name -/

/-- The names of the kinds that need something besides their name. -/
def needyNames : List String := ["text", "channel", "role", "user", "timestamp"]

theorem toNode_text (h : wire.kind = "text") : wire.toNode = wire.toText := by
  unfold toNode
  rw [h]
  rfl

theorem toNode_mention (reference : Reference) (h : wire.kind = reference.name) :
    wire.toNode = wire.toMention reference := by
  unfold toNode
  rw [h]
  cases reference <;> rfl

theorem toNode_timestamp (h : wire.kind = "timestamp") : wire.toNode = wire.toTimestamp := by
  unfold toNode
  rw [h]
  rfl

theorem toStyled_eq_toUnknown (h : wire.kind ∉ freeNames) : wire.toStyled = wire.toUnknown := by
  unfold toStyled
  split
  · next style hstyle =>
    have hfree : style.name ∈ freeNames := by cases style <;> decide
    exact absurd (Style.name_of_ofName? hstyle ▸ hfree) h
  · rfl

/-- A record of no known kind. -/
theorem toNode_foreign (hfree : wire.kind ∉ freeNames) (hneedy : wire.kind ∉ needyNames) :
    wire.toNode = wire.toUnknown := by
  unfold toNode
  split
  -- An arm is for a name of one of the two lists, or for all other names.
  all_goals first
    | exact toStyled_eq_toUnknown hfree
    | next hname => exact absurd (by rw [hname]; decide) hfree
    | next hname => exact absurd (by rw [hname]; decide) hneedy

/-! ### Records without what their kind needs -/

theorem nodeName_eq_self {name : String} (h : name ∉ freeNames) : nodeName name = name := by
  have hlookup : aliases.lookup name = none := by
    refine List.lookup_eq_none_iff.mpr fun entry hentry => ?_
    have hfree : entry.1 ∈ freeNames := by
      revert entry
      decide
    exact bne_iff_ne.mpr fun heq => h (heq ▸ hfree)
  rw [nodeName, hlookup, Option.getD_none]

theorem toText_eq_toUnknown (h : ¬wire.IsComplete) (hname : wire.kind = "text") :
    wire.toText = wire.toUnknown := by
  unfold toText
  split
  · next content hcontent => exact absurd (.text content hname hcontent) h
  · rfl

theorem toMention_eq_toUnknown {reference : Reference} (h : ¬wire.IsComplete)
    (hname : wire.kind = reference.name) : wire.toMention reference = wire.toUnknown := by
  unfold toMention
  split
  · next id hid => exact absurd (.mention reference id hname hid) h
  · rfl

theorem toTimestamp_eq_toUnknown (h : ¬wire.IsComplete) (hname : wire.kind = "timestamp") :
    wire.toTimestamp = wire.toUnknown := by
  unfold toTimestamp
  split
  · next seconds htime => exact absurd (.timestamp seconds hname htime) h
  · rfl

theorem toNode_eq_toUnknown (h : ¬wire.IsComplete) : wire.toNode = wire.toUnknown := by
  have hfree : wire.kind ∉ freeNames := fun hmem => h (.free hmem)
  by_cases hneedy : wire.kind ∈ needyNames
  · simp only [needyNames, List.mem_cons, List.not_mem_nil, or_false] at hneedy
    obtain htext | hchannel | hrole | huser | htime := hneedy
    · exact (toNode_text htext).trans (toText_eq_toUnknown h htext)
    · exact (toNode_mention .channel hchannel).trans (toMention_eq_toUnknown h hchannel)
    · exact (toNode_mention .role hrole).trans (toMention_eq_toUnknown h hrole)
    · exact (toNode_mention .user huser).trans (toMention_eq_toUnknown h huser)
    · exact (toNode_timestamp htime).trans (toTimestamp_eq_toUnknown h htime)
  · exact toNode_foreign hfree hneedy

/-! ### Records with what their kind needs -/

theorem toNode_of_free (h : wire.kind ∈ freeNames) :
    wire.toNode.kind = nodeName wire.kind ∧
      ∀ kind content, wire.toNode ≠ .unknown kind content := by
  -- Once the name is known, the node is, whatever the fields hold.
  obtain ⟨name, _, _, _, _, _, _, _, _⟩ := wire
  simp only [freeNames, List.mem_cons, List.not_mem_nil, or_false] at h
  rcases h with rfl | rfl | rfl | rfl | rfl | rfl | rfl | rfl | rfl | rfl | rfl | rfl | rfl | rfl |
    rfl | rfl | rfl | rfl <;> exact ⟨rfl, fun _ _ => Node.noConfusion⟩

theorem toNode_of_isComplete (h : wire.IsComplete) :
    wire.toNode.kind = nodeName wire.kind ∧
      ∀ kind content, wire.toNode ≠ .unknown kind content := by
  cases h with
  | free hname => exact toNode_of_free hname
  | text content hname hcontent =>
    have hnode : wire.toNode = .text content := by rw [toNode_text hname, toText, hcontent]
    rw [hnode, hname]
    exact ⟨rfl, fun _ _ => Node.noConfusion⟩
  | mention reference id hname hid =>
    have hnode : wire.toNode = .mention reference id := by
      rw [toNode_mention reference hname, toMention, hid]
    rw [hnode, hname]
    cases reference <;> exact ⟨rfl, fun _ _ => Node.noConfusion⟩
  | timestamp seconds hname htime =>
    have hnode : wire.toNode = .timestamp seconds (wire.code.getD "f") := by
      rw [toNode_timestamp hname, toTimestamp, htime]
    rw [hnode, hname]
    exact ⟨rfl, fun _ _ => Node.noConfusion⟩

/-! ### All records -/

/-- A node goes by the name of its record, but for the three names that stand for others. It is an
unknown node if and only if the record is not complete, and then under the record's name and with
its content. -/
theorem kind_toNode_and_unknown_iff (wire : WireNode) :
    wire.toNode.kind = nodeName wire.kind ∧
      ∀ kind content, wire.toNode = .unknown kind content ↔
        ¬wire.IsComplete ∧ kind = wire.kind ∧ content = wire.content := by
  by_cases h : wire.IsComplete
  · obtain ⟨hkind, hknown⟩ := toNode_of_isComplete h
    exact ⟨hkind, fun kind content => iff_of_false (hknown kind content) fun hnot => hnot.1 h⟩
  · have hname : wire.kind ∉ freeNames := fun hmem => h (.free hmem)
    rw [toNode_eq_toUnknown h, nodeName_eq_self hname]
    refine ⟨rfl, fun kind content => ⟨fun heq => ?_, fun ⟨_, hkind, hcontent⟩ => ?_⟩⟩
    · cases heq
      exact ⟨h, rfl, rfl⟩
    · rw [hkind, hcontent]
      rfl

/-- A time that is no number, and a text without a text. -/
example : toNode { blank with kind := "timestamp", time := some (.text "soon") } =
      .unknown "timestamp" none ∧
    toNode { blank with kind := "text", content := some (.nodes [.lineBreak]) } =
      .unknown "text" (some (.nodes [.lineBreak])) := ⟨rfl, rfl⟩

end Gazette.WireNode
