import Gazette.Index.Search
import Gazette.Proofs.Text.Encoding
import Gazette.Proofs.Text.Places

/-!
# Bylines are not searched

The card of a post is its byline, a line break and the body (`Post.cardText_eq`), and what a search
cuts off is exactly this byline, whatever the author is called and whatever the body begins with
(`Post.isBylineOf_dated`). So posts with one body match the same queries
(`Search.mem_hits_dated_iff`).
-/

namespace Gazette

open Text (IsCutAt after? isBlank trimStart)

/-! ### Texts that are written as they are -/

namespace Markup

theorem escape_eq_self {s : List Char} (h : ∀ c ∈ s, escapeChar c = [c]) : escape s = s := by
  induction s with
  | nil => rfl
  | cons c s ih =>
    obtain ⟨hc, hs⟩ := List.forall_mem_cons.mp h
    rw [escape, List.flatMap_cons, hc, ← escape, ih hs]
    rfl

theorem escapeChar_eq_self {c : Char} (h : c ∉ ['&', '<', '>', '"']) : escapeChar c = [c] := by
  simp only [List.mem_cons, List.not_mem_nil, or_false, not_or] at h
  unfold escapeChar
  split <;> simp_all

theorem notMem_escape (s : List Char) : '<' ∉ escape s := by
  intro h
  obtain ⟨c, -, hc⟩ := List.mem_flatMap.mp h
  exact (mem_escapeChar hc).1 rfl

end Markup

namespace Time

/-- The characters of a date: letters, digits and those between and before them. -/
def isDateChar (c : Char) : Bool := c.isAlphanum || c == ' ' || c == ',' || c == '+' || c == '-'

theorem escapeChar_of_isDateChar {c : Char} (h : isDateChar c = true) :
    Markup.escapeChar c = [c] := by
  refine Markup.escapeChar_eq_self fun hmem => ?_
  have hspecial : (['&', '<', '>', '"'].all fun d => !isDateChar d) = true := by decide
  have hnot := List.all_eq_true.mp hspecial c hmem
  rw [h] at hnot
  cases hnot

theorem isDateChar_of_isDigit {c : Char} (h : c.isDigit = true) : isDateChar c = true := by
  rw [isDateChar, Char.isAlphanum, h, Bool.or_true]
  rfl

theorem isDateChar_monthName (month : Nat) : ∀ c ∈ monthName month, isDateChar c = true := by
  have hnames : (("" :: monthNames).all fun name => name.toList.all isDateChar) = true := by decide
  intro c hc
  refine List.all_eq_true.mp (List.all_eq_true.mp hnames (monthNames.getD (month - 1) "") ?_) c hc
  rw [List.getD_eq_getElem?_getD]
  cases hname : monthNames[month - 1]? with
  | none => exact List.mem_cons_self
  | some name => exact List.mem_cons_of_mem "" (List.mem_of_getElem? hname)

theorem isDateChar_padded (width n : Nat) : ∀ c ∈ Text.padded width n, isDateChar c = true :=
  fun _ hc => isDateChar_of_isDigit (Text.isDigit_of_mem_padded hc)

theorem isDateChar_yearDigits (year : Int) : ∀ c ∈ yearDigits year, isDateChar c = true := by
  intro c hc
  unfold yearDigits at hc
  split at hc
  · exact isDateChar_padded _ _ c hc
  · obtain rfl | hdigit := List.mem_cons.mp hc
    · split
      · rfl
      · rfl
    · exact isDateChar_padded _ _ c hdigit

theorem isDateChar_mediumDate (at' : Instant) :
    ∀ c ∈ Pattern.mediumDate.format at', isDateChar c = true := by
  intro c hc
  obtain ⟨field, hfield, hc⟩ := List.mem_flatMap.mp hc
  simp only [Pattern.mediumDate, List.mem_cons, List.not_mem_nil, or_false] at hfield
  obtain rfl | rfl | rfl | rfl | rfl := hfield
  · exact isDateChar_monthName _ c (List.mem_of_mem_take hc)
  · exact List.all_eq_true.mp (by decide : " ".toList.all isDateChar = true) c hc
  · exact isDateChar_of_isDigit (Text.isDigit_of_mem_natDigits hc)
  · exact List.all_eq_true.mp (by decide : ", ".toList.all isDateChar = true) c hc
  · exact isDateChar_yearDigits _ c hc

theorem escape_mediumDate (at' : Instant) :
    Markup.escape (Pattern.mediumDate.format at') = Pattern.mediumDate.format at' :=
  Markup.escape_eq_self fun c hc => escapeChar_of_isDateChar (isDateChar_mediumDate at' c hc)

end Time

/-! ### Bylines -/

namespace Search

/-- Whether a text is an element in italics with something in it, blanks in front. -/
def IsByline (text : List Char) : Prop :=
  ∃ blanks inner, (∀ c ∈ blanks, isBlank c = true) ∧ inner ≠ [] ∧
    text = blanks ++ ("<i>".toList ++ (inner ++ "</i>".toList))

/-- Whether a card is its shortest byline and the rest. -/
structure IsBylineOf (card byline rest : List Char) : Prop where
  eq : card = byline ++ rest
  isByline : IsByline byline
  shortest : ∀ other rest', card = other ++ rest' → IsByline other → byline.length ≤ other.length

/-- The shortest byline is what a search leaves out. -/
theorem IsBylineOf.withoutByline_eq {card byline rest : List Char}
    (h : IsBylineOf card byline rest) : withoutByline card = rest := by
  obtain ⟨blanks, inner, hblanks, hinner, hbyline⟩ := h.isByline
  obtain ⟨c, inner, rfl⟩ := List.exists_cons_of_ne_nil hinner
  have hcard : card = blanks ++ ("<i>".toList ++ (c :: (inner ++ ("</i>".toList ++ rest)))) := by
    rw [h.eq, hbyline]
    simp only [List.append_assoc, List.cons_append]
  have htrim : trimStart card = "<i>".toList ++ (c :: (inner ++ ("</i>".toList ++ rest))) := by
    rw [hcard, trimStart, List.dropWhile_append_of_pos hblanks]
    rfl
  have hcut : IsCutAt "</i>".toList (inner ++ ("</i>".toList ++ rest)) inner rest := by
    refine ⟨rfl, fun before rest' heq => ?_⟩
    have hother := h.shortest (blanks ++ ("<i>".toList ++ (c :: before ++ "</i>".toList))) rest'
      (by rw [hcard, heq]; simp only [List.append_assoc, List.cons_append])
      ⟨blanks, c :: before, hblanks, List.cons_ne_nil c before, rfl⟩
    rw [hbyline] at hother
    simp only [List.length_append, List.length_cons] at hother
    omega
  rw [withoutByline, htrim, Text.after?_eq_some_iff.mpr rfl]
  change (Text.behind? "</i>".toList (inner ++ ("</i>".toList ++ rest))).getD card = rest
  rw [hcut.behind?_eq]
  rfl

/-- A card without a byline is searched as it is. -/
theorem withoutByline_eq_self {card : List Char}
    (h : ∀ byline rest, card = byline ++ rest → ¬ IsByline byline) : withoutByline card = card := by
  unfold withoutByline
  split
  · next c rest hafter =>
    cases hbehind : Text.behind? "</i>".toList rest with
    | none => rfl
    | some behind =>
      obtain ⟨inner, hcut⟩ := Text.behind?_eq_some_iff.mp hbehind
      have htrim := Text.after?_eq_some_iff.mp hafter
      refine absurd ⟨card.takeWhile isBlank, c :: inner, ?_, List.cons_ne_nil c inner, rfl⟩
        (h _ behind ?_)
      · calc card
          _ = card.takeWhile isBlank ++ trimStart card := List.takeWhile_append_dropWhile.symm
          _ = _ := by rw [htrim, hcut.eq]; simp only [List.append_assoc, List.cons_append]
      · exact fun d => List.all_eq_true.mp List.all_takeWhile d
  · rfl

end Search

namespace Post

/-- The byline of an author and a date as it is printed. -/
def bylineText (author date : String) : List Char :=
  "<i>Written by <b>".toList ++ Markup.escape author.toList ++ "</b> on <b>".toList ++
    date.toList ++ "</b></i>".toList

/-- What stands in a byline before its end. -/
def openByline (author date : String) : List Char :=
  "<i>Written by ".toList ++ ("<b>".toList ++ (Markup.escape author.toList ++ ("</b> on ".toList ++
    ("<b>".toList ++ (date.toList ++ "</b>".toList)))))

theorem bylineText_eq (author date : String) :
    bylineText author date = openByline author date ++ "</i>".toList := by
  have hfront : "<i>Written by <b>".toList = "<i>Written by ".toList ++ "<b>".toList := by rfl
  have hmiddle : "</b> on <b>".toList = "</b> on ".toList ++ "<b>".toList := by rfl
  have hback : "</b></i>".toList = "</b>".toList ++ "</i>".toList := by rfl
  unfold bylineText openByline
  rw [hfront, hmiddle, hback]
  simp only [List.append_assoc]

/-- Whether no tag that stands in a byline before its end begins as `'<' :: part` does. -/
def IsNoTagOf (part : List Char) : Prop :=
  ∀ tag ∈ ["<i>Written by ", "<b>", "</b> on ", "</b>"],
    ∃ start, tag.toList = '<' :: start ∧ '<' ∉ start ∧ ∀ s, after? part (start ++ s) = none

theorem isNoTagOf_lineBreak : IsNoTagOf ['b', 'r', '>'] := by
  simp only [IsNoTagOf, List.forall_mem_cons]
  exact ⟨⟨"i>Written by ".toList, by rfl, by decide, fun _ => by rfl⟩,
    ⟨"b>".toList, rfl, by decide, fun _ => rfl⟩, ⟨"/b> on ".toList, rfl, by decide, fun _ => rfl⟩,
    ⟨"/b>".toList, rfl, by decide, fun _ => rfl⟩, List.forall_mem_nil _⟩

theorem isNoTagOf_end : IsNoTagOf ['/', 'i', '>'] := by
  simp only [IsNoTagOf, List.forall_mem_cons]
  exact ⟨⟨"i>Written by ".toList, by rfl, by decide, fun _ => by rfl⟩,
    ⟨"b>".toList, rfl, by decide, fun _ => rfl⟩, ⟨"/b> on ".toList, rfl, by decide, fun _ => rfl⟩,
    ⟨"/b>".toList, rfl, by decide, fun _ => rfl⟩, List.forall_mem_nil _⟩

/-- Neither a line break nor the end of a byline is found before the byline ends. -/
theorem isCutAt_openByline {part s before rest : List Char} {author date : String}
    (h : IsCutAt ('<' :: part) s before rest) (hpart : IsNoTagOf part)
    (hdate : Markup.escape date.toList = date.toList) :
    IsCutAt ('<' :: part) (openByline author date ++ s) (openByline author date ++ before) rest := by
  have htag : ∀ tag ∈ ["<i>Written by ", "<b>", "</b> on ", "</b>"], ∀ {s before},
      IsCutAt ('<' :: part) s before rest →
      IsCutAt ('<' :: part) (tag.toList ++ s) (tag.toList ++ before) rest := by
    intro tag hmem s before h
    obtain ⟨start, htag, hstart, hafter⟩ := hpart tag hmem
    rw [htag]
    exact (h.append hstart).cons (by rw [after?, if_pos rfl, hafter])
  have hdate : '<' ∉ date.toList := hdate ▸ Markup.notMem_escape date.toList
  unfold openByline
  simp only [List.append_assoc]
  refine htag _ (by simp) (htag _ (by simp) (.append (htag _ (by simp) (htag _ (by simp)
    (.append (htag _ (by simp) h) hdate))) (Markup.notMem_escape author.toList)))

/-- A card is the byline, a line break and the body. -/
theorem cardText_eq {date : String} (author body : String)
    (hdate : Markup.escape date.toList = date.toList) :
    cardText author date body =
      bylineText author date ++ (Markup.lineBreakText ++ body.toList) := by
  have hwritten : Markup.escape "Written by ".toList = "Written by ".toList := by decide
  have hon : Markup.escape " on ".toList = " on ".toList := by decide
  have hprint : Markup.printAll (cardMarkup author date body) =
      openByline author date ++ ("</i>".toList ++ ('<' :: ("br>".toList ++ body.toList))) := by
    simp only [cardMarkup, byline, Markup.plain, Markup.printAll, Markup.print, hwritten, hon, hdate]
    unfold openByline Markup.openingTag Markup.closingTag
    simp
  have hend : IsCutAt ['<', 'b', 'r', '>'] ("</i>".toList ++ ('<' :: ("br>".toList ++ body.toList)))
      "</i>".toList body.toList :=
    ((Text.isCutAt_start ['<', 'b', 'r', '>'] body.toList).append
      (by decide : '<' ∉ "/i>".toList)).cons rfl
  have hbreak : "<br>".toList = ['<', 'b', 'r', '>'] := rfl
  rw [cardText, hprint, hbreak, (isCutAt_openByline hend isNoTagOf_lineBreak hdate).replaceFirst_eq,
    bylineText_eq]

/-- Whatever the author is called, the shortest byline at the start of a card is its own. -/
theorem isBylineOf_bylineText {author date : String} (rest : List Char)
    (hdate : Markup.escape date.toList = date.toList) :
    Search.IsBylineOf (bylineText author date ++ rest) (bylineText author date) rest := by
  have hcut : IsCutAt ['<', '/', 'i', '>'] (openByline author date ++ ("</i>".toList ++ rest))
      (openByline author date) rest := by
    have hstart := Text.isCutAt_start ['<', '/', 'i', '>'] rest
    simpa using isCutAt_openByline hstart isNoTagOf_end hdate
  have hend : "</i>".toList = ['<', '/', 'i', '>'] := rfl
  refine ⟨rfl, ⟨[], "Written by <b>".toList ++ Markup.escape author.toList ++ "</b> on <b>".toList ++
    date.toList ++ "</b>".toList, List.forall_mem_nil _, ?_, ?_⟩, ?_⟩
  · simp
  · unfold bylineText
    simp
  · rintro other rest' heq ⟨blanks, inner, -, -, rfl⟩
    have hfirst := hcut.first (blanks ++ ("<i>".toList ++ inner)) rest' (by
      rw [bylineText_eq] at heq
      simpa [hend] using heq)
    rw [bylineText_eq]
    simp only [List.length_append] at hfirst ⊢
    omega

/-- The post of a document where it is dated by a clock that is `offset` seconds ahead of universal
time. -/
def dated (resolver : Resolver) (offset : Int) (document : Document) : Post :=
  let date := String.ofList (Time.Pattern.mediumDate.format (document.createdAt.shift offset))
  let body := String.ofList (Body.render resolver document.nodes)
  { (ofDocument resolver ⟨.utc, []⟩ document).1 with
    card := String.ofList (cardText document.author.name date body)
    date := date }

theorem ofDocument_eq_dated (resolver : Resolver) (options : PostOptions) (document : Document) :
    ofDocument resolver options document =
      (dated resolver (options.zone.offset document.createdAt.seconds) document,
        String.ofList (Body.render resolver document.nodes)) := rfl

theorem escape_date (resolver : Resolver) (offset : Int) (document : Document) :
    Markup.escape (dated resolver offset document).date.toList =
      (dated resolver offset document).date.toList := by
  simp only [dated, String.toList_ofList]
  exact Time.escape_mediumDate _

theorem card_dated (resolver : Resolver) (offset : Int) (document : Document) :
    (dated resolver offset document).card.toList =
      bylineText document.author.name (dated resolver offset document).date ++
        (Markup.lineBreakText ++ Body.render resolver document.nodes) := by
  have h := cardText_eq document.author.name
    (String.ofList (Body.render resolver document.nodes)) (escape_date resolver offset document)
  rw [String.toList_ofList] at h
  rw [← h, dated, String.toList_ofList]

end Post

namespace Search

theorem mem_hits_iff {posts : List Post} {query : String} {post : Post} :
    post ∈ hits posts query ↔ post ∈ posts ∧ needle query ≠ [] ∧
      Text.isPart (needle query) (normalize (withoutByline post.card.toList)) = true := by
  unfold hits
  by_cases hneedle : needle query = []
  · simp [hneedle]
  · simp [hneedle]

/-- The card of a post is the byline with the escaped name of the author, a line break and the body.
A search leaves out the byline as the shortest one that the card begins with, so that exactly the
line break and the body are searched. Posts with one body, whoever wrote them, whenever and in
whatever zone they are dated, match the same queries. -/
theorem mem_hits_dated_iff (resolver : Resolver) (offset : Int) (document : Document) :
    let post := Post.dated resolver offset document
    let byline := Post.bylineText document.author.name post.date
    let body := Body.render resolver document.nodes
    (∀ options : PostOptions, options.zone.offset document.createdAt.seconds = offset →
      Post.ofDocument resolver options document = (post, String.ofList body)) ∧
    post.card.toList = byline ++ (Markup.lineBreakText ++ body) ∧
    Search.IsBylineOf post.card.toList byline (Markup.lineBreakText ++ body) ∧
    Search.withoutByline post.card.toList = Markup.lineBreakText ++ body ∧
    ∀ (resolver' : Resolver) (offset' : Int) (document' : Document),
      Body.render resolver' document'.nodes = body →
      ∀ (posts posts' : List Post) (query : String),
        post ∈ posts → Post.dated resolver' offset' document' ∈ posts' →
        (post ∈ Search.hits posts query ↔
          Post.dated resolver' offset' document' ∈ Search.hits posts' query) := by
  have hbyline : ∀ resolver offset document, Search.IsBylineOf
      (Post.dated resolver offset document).card.toList
      (Post.bylineText document.author.name (Post.dated resolver offset document).date)
      (Markup.lineBreakText ++ Body.render resolver document.nodes) := by
    intro resolver offset document
    rw [Post.card_dated]
    exact Post.isBylineOf_bylineText _ (Post.escape_date resolver offset document)
  refine ⟨?_, Post.card_dated resolver offset document, hbyline resolver offset document,
    (hbyline resolver offset document).withoutByline_eq, ?_⟩
  · rintro options rfl
    exact Post.ofDocument_eq_dated resolver options document
  · intro resolver' offset' document' hbody posts posts' query hpost hpost'
    rw [Search.mem_hits_iff, Search.mem_hits_iff, (hbyline _ _ _).withoutByline_eq,
      (hbyline _ _ _).withoutByline_eq, hbody]
    simp only [hpost, hpost', true_and]

/-- A message that begins as a byline does, with a line break in it. -/
def signed (name : String) (at' : Time.Instant) : Document :=
  ⟨"7", none, ⟨"1", some name, "ada"⟩, at', none, "", [.text "<i>tea</i>", .lineBreak, .text "at 5"],
    []⟩

theorem mem_hits_dated_iff_sample :
    let post := Post.dated Entities.empty.resolver 0 (signed "</i><br>\"&" ⟨0, 0⟩)
    let other := Post.dated Entities.empty.resolver 32400 (signed "Ada" ⟨1700000000, 0⟩)
    Body.render Entities.empty.resolver (signed "Ada" ⟨1700000000, 0⟩).nodes =
        Body.render Entities.empty.resolver (signed "</i><br>\"&" ⟨0, 0⟩).nodes ∧
      (post ∈ hits [post] "br" ↔ other ∈ hits [other] "br") := by
  intro post other
  obtain ⟨-, -, -, -, hhits⟩ :=
    mem_hits_dated_iff Entities.empty.resolver 0 (signed "</i><br>\"&" ⟨0, 0⟩)
  exact ⟨rfl, hhits Entities.empty.resolver 32400 (signed "Ada" ⟨1700000000, 0⟩) rfl [post] [other]
    "br" (List.mem_singleton_self post) (List.mem_singleton_self other)⟩

end Search

end Gazette
