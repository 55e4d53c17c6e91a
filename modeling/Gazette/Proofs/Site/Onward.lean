import Gazette.Proofs.Index.Partition
import Gazette.Proofs.Site.Links
import Gazette.Proofs.Site.Turning
import Gazette.Proofs.Site.WellFormed
import Mathlib.Data.List.Perm.Subperm

/-!
# Where pages lead on

The pager of a listing or of a page of hits leads to the page behind it if there is something on
that page, and to the page before it unless it is the first one (`Page.leadsOn_pages`). The numbers
of these pages are computed only where they are words (`Paging.neighbours?`). The page of a post
leads on if the cards below the post are not those of all others.
-/

namespace Gazette

/-! ### Pages next to a page -/

namespace Paging

variable {α : Type} {items : List α} {size : Nat}

/-- The numbers of the page before one and of the one behind it, where there are such pages,
computed in words. There is no result if any number on the way is not a word. -/
def neighbours? (page : Int64) (count size : UInt64) : Option (Option Int64 × Option Int64) := do
  let page := max page 1
  let pages ← count? count size
  let previous ← Word.onlyIf (1 < page) (Word.signedMinus? page 1)
  let next ← Word.onlyIf (page.toUInt64 < pages) (Word.signedPlus? page 1)
  return (previous, next)

theorem hasNext_iff (hlength : items.length ≤ largest) (hsize : 0 < size) (page : Int) :
    hasNext page items.length size = true ↔ paginate items (max page 1 + 1) size ≠ [] := by
  have hnumber : ((pageNumber page : Nat) : Int) = max page 1 := by
    rw [pageNumber]
    omega
  rw [hasNext, decide_eq_true_iff, ← paginate_ne_nil_iff hlength hsize, hnumber]

/-- There are words for the pages next to one: a page that another one is behind is not the last
word, and one that another one is before is not the first. -/
theorem neighbours?_eq {count : Nat} (hcount : count < 2 ^ 63) {size : UInt64} (hsize : 1 ≤ size)
    (page : Int64) :
    let number := max page.toInt 1
    ∃ previous next, neighbours? page (UInt64.ofNat count) size = some (previous, next) ∧
      previous.map Int64.toInt = (if 1 < number then some (number - 1) else none) ∧
      next.map Int64.toInt =
        if hasNext page.toInt count size.toNat then some (number + 1) else none := by
  intro number
  have hnumber : (max page 1).toInt = number := Word.toInt_max page 1
  have hone : (1 : Int64).toInt = 1 := rfl
  have hmin : Int64.minValue.toInt = -2 ^ 63 := rfl
  have hmax : Int64.maxValue.toInt = 2 ^ 63 - 1 := rfl
  have hupper : number < 2 ^ 63 := hnumber ▸ Int64.toInt_lt _
  have hword : count ≤ largest := Nat.le_trans (Nat.le_of_lt hcount) (by decide)
  obtain ⟨pages, hpages, hvalue⟩ := count?_eq (UInt64.ofNat count) size
  rw [Word.toNat_ofNat hword] at hvalue
  have hbefore : 1 < max page 1 ↔ 1 < number := by rw [Int64.lt_iff_toInt_lt, hone, hnumber]
  have hbehind : (max page 1).toUInt64 < pages ↔ hasNext page.toInt count size.toNat = true := by
    rw [UInt64.lt_iff_toNat_lt, toNat_max_one, hvalue, hasNext, decide_eq_true_iff]
  obtain ⟨previous, hprevious, hfirst⟩ := Word.onlyIf_eq hbefore fun hlater => by
    have hdifference := @Word.signedMinus?_eq (max page 1) 1 ⟨by omega, by omega⟩
    rwa [hnumber, hone] at hdifference
  -- Where another page is behind, the number is below the count of pages, and this one is no more
  -- than that of the items.
  obtain ⟨next, hnext, hlast⟩ := Word.onlyIf_eq hbehind fun hmore => by
    have hcounted : pageNumber page.toInt < pageCount count size.toNat := of_decide_eq_true hmore
    have hle := pageCount_le count (UInt64.le_iff_toNat_le.mp hsize)
    rw [pageNumber] at hcounted
    have hsum := @Word.signedPlus?_eq (max page 1) 1 ⟨by omega, by omega⟩
    rwa [hnumber, hone] at hsum
  refine ⟨previous, next, ?_, hfirst, hlast⟩
  rw [neighbours?, hpages]
  dsimp only [Option.bind_eq_bind, Option.bind_some]
  rw [hprevious, hnext]
  rfl

theorem hasNext_max (page : Int) (count size : Nat) :
    hasNext (max page 1) count size = hasNext page count size := by
  rw [hasNext, hasNext, pageNumber, pageNumber, Int.max_eq_left (Int.le_max_right page 1)]

end Paging

/-- An index has no more posts than there are documents in the archive that it is built from. -/
theorem Index.length_posts_le {channel : String} {documents : List Document} {resolver : Resolver}
    {options : PostOptions} {index : Index}
    (h : build (Archive.ofDocuments channel documents).source resolver options () =
      (.ok index, ())) : index.posts.length ≤ documents.length := by
  obtain ⟨hfetch, hnodup, hmem, -⟩ := Archive.fetchAll_ofDocuments channel documents
  rw [build, hfetch] at h
  obtain rfl := Except.ok.inj (Prod.mk.inj h).1
  let history := (Archive.ofDocuments channel documents).history
  calc (ofDocuments resolver options history).posts.length
    _ = (history.filter (isShown options)).length := by
      rw [ofDocuments, List.length_map, List.length_map, sortNewestFirst, List.length_mergeSort]
    _ ≤ history.length := List.length_filter_le _ _
    _ ≤ documents.length := (List.subperm_of_subset (List.Nodup.of_map _ hnodup) hmem).length_le

namespace Page

open Markup (gather gatherAll)

/-! ### Pages of posts -/

/-- Whether the pager in the text of a page has a link to the page behind it if there are posts on
that page, and one to the page before it unless it is the first one, and there are words for the
numbers of these pages. -/
def LeadsOn (text base : String) (page : Int64) (count : Nat) (posts : Int → List Post) : Prop :=
  let number := max page.toInt 1
  ∃ previous next,
    Paging.neighbours? page (UInt64.ofNat count) (UInt64.ofNat Index.pageSize) =
      some (previous, next) ∧
    previous.map Int64.toInt = (if 1 < number then some (number - 1) else none) ∧
    next.map Int64.toInt =
      (if (posts (number + 1)).isEmpty then none else some (number + 1)) ∧
    pagerTarget? text "Previous Page" = previous.map (pageAddress base ·.toInt) ∧
    pagerTarget? text "Next Page" = next.map (pageAddress base ·.toInt)

theorem leadsOn_shell (context : FeedContext) (title canonical : String) (summary : PageSummary)
    (content : List Markup) (base : String) (page : Int64) (posts : List Post)
    (hlength : posts.length < 2 ^ 63) :
    let number := max page.toInt 1
    LeadsOn (Markup.render (shell context title canonical summary
        (content ++ [pager base number (Paging.hasNext number posts.length Index.pageSize)])))
      base page posts.length fun number => Paging.paginate posts number Index.pageSize := by
  intro number
  have hword : posts.length ≤ Paging.largest := Nat.le_trans (Nat.le_of_lt hlength) (by decide)
  have hsize : (UInt64.ofNat Index.pageSize).toNat = Index.pageSize := by decide
  have hone : (1 : UInt64) ≤ UInt64.ofNat Index.pageSize := by decide
  have hmore : Paging.hasNext page.toInt posts.length Index.pageSize =
      !(Paging.paginate posts (number + 1) Index.pageSize).isEmpty := by
    rw [Bool.eq_iff_iff, Paging.hasNext_iff hword (by decide), Bool.not_eq_true',
      List.isEmpty_eq_false_iff]
  have hmap : ∀ word : Option Int64, word.map (pageAddress base ·.toInt) =
      (word.map Int64.toInt).map (pageAddress base) := fun word =>
      (Option.map_map (pageAddress base) Int64.toInt word).symm
  obtain ⟨previous, next, hwords, hprevious, hnext⟩ := Paging.neighbours?_eq hlength hone page
  obtain ⟨hback, honward⟩ := pagerTarget?_shell context title canonical summary content base number
    (Paging.hasNext number posts.length Index.pageSize)
  rw [Paging.hasNext_max] at hback honward ⊢
  rw [hsize, hmore] at hnext
  rw [hmore] at hback honward ⊢
  have hshown : next.map Int64.toInt =
      if (Paging.paginate posts (number + 1) Index.pageSize).isEmpty then none
      else some (number + 1) := by
    rw [hnext]
    cases (Paging.paginate posts (number + 1) Index.pageSize).isEmpty <;> rfl
  refine ⟨previous, next, hwords, hprevious, hshown, ?_, ?_⟩
  · rw [hback, hmap, hprevious, apply_ite (Option.map (pageAddress base))]
    rfl
  · rw [honward, hmap, hnext, apply_ite (Option.map (pageAddress base))]
    rfl

theorem leadsOn_listing (context : FeedContext) (index : Index) (page : Int64)
    (hlength : index.posts.length < 2 ^ 63) :
    LeadsOn (Markup.render (listing context index page.toInt)) context.root page
      index.posts.length index.page :=
  leadsOn_shell context _ _ _ _ _ page index.posts hlength

theorem leadsOn_search (context : FeedContext) (index : Index) (query : String) (page : Int64)
    (hlength : index.posts.length < 2 ^ 63) :
    LeadsOn (Markup.render (search context index query page.toInt))
      (context.pathTo (queryPart query)) page (index.search query page.toInt).1
      fun number => (index.search query number).2 := by
  have hhits : (Search.hits index.posts query).length < 2 ^ 63 :=
    Nat.lt_of_le_of_lt (Search.length_hits_le _ _) hlength
  simp only [Index.search]
  exact leadsOn_shell context _ _ _ (_ :: _) _ page (Search.hits index.posts query) hhits

/-! ### Pages of one post -/

/-- The target of the link to the post of a card. -/
def cardTarget? : Markup → Option String
  | .element name attributes children =>
    if name = "p" ∧ attributes = [.value "class" "post-meta"] then
      children.findSome? Markup.anchor?
    else none
  | _ => none

/-- The addresses of the posts that have cards on a page. -/
def listed (page : List Markup) : List String := gatherAll cardTarget? page

theorem listed_card (context : FeedContext) (post : Post) :
    gather cardTarget? (card context post) = [context.pathTo ("/post/" ++ post.sourceId)] := by
  unfold card
  split <;> simp [Markup.classed, Markup.link, gather, cardTarget?, Markup.anchor?, Markup.target?]

theorem listed_shell (context : FeedContext) (title canonical : String) (summary : PageSummary)
    (content : List Markup) :
    listed (shell context title canonical summary content) = listed content := by
  have hembedding : gatherAll cardTarget? (summary.embedding.toList.map fun address =>
      .void "link" [.value "type" "application/json+oembed", .value "href" address]) = [] :=
    Markup.gatherAll_map_eq_nil (fun address => by simp [gather, cardTarget?]) _
  simp [listed, shell, head, masthead, named, property, Markup.plain, Markup.classed, Markup.link,
    gather, cardTarget?, hembedding]

theorem listed_attachments (addresses : List String) : listed (attachments addresses) = [] := by
  have hlinks : gatherAll cardTarget? (addresses.map fun address =>
      .element "a" (Markup.external address)
        [.void "img"
          [.value "class" "attachment", .value "src" address, .value "alt" "attachment",
            .value "loading" "lazy"]]) = [] :=
    Markup.gatherAll_map_eq_nil (fun address => by simp [gather, cardTarget?]) addresses
  unfold attachments
  split
  · exact Markup.gatherAll_nil _
  · simp [listed, Markup.classed, gather, cardTarget?, hlinks]

theorem listed_recentPosts (context : FeedContext) (index : Index) (post : Post) :
    listed (recentPosts context index post) = ((others index post).take recentCount).map
      fun other => context.pathTo ("/post/" ++ other.sourceId) := by
  have hcards := Markup.gatherAll_map (listed_card context) ((others index post).take recentCount)
  have hnote : gatherAll cardTarget? (if recentCount + 1 < index.posts.length then
      [.plain "p" [.link (context.root ++ "?page=2") [.text "See more"]]] else []) = [] := by
    split <;> simp [Markup.plain, Markup.link, gather, cardTarget?]
  change listed (if ((others index post).take recentCount).isEmpty then []
    else .classed "h2" "section-title" [.text "Other Recent Posts"] ::
      ((others index post).take recentCount).map (card context) ++ _) = _
  split
  · next hempty => rw [List.isEmpty_iff.mp hempty, listed, Markup.gatherAll_nil, List.map_nil]
  · rw [listed, Markup.gatherAll_append, hnote, Markup.gatherAll_cons, hcards]
    simp [Markup.classed, gather, cardTarget?]

/-- The page of a post lists the first of the others. -/
theorem listed_post (context : FeedContext) (index : Index) (post : Post) :
    listed (Page.post context index post) = ((others index post).take recentCount).map
      fun other => context.pathTo ("/post/" ++ other.sourceId) := by
  have hattachments := listed_attachments post.attachments
  have hrecent := listed_recentPosts context index post
  unfold Page.post
  dsimp only
  rw [listed_shell]
  rw [listed] at hattachments hrecent ⊢
  simp [Markup.classed, gather, cardTarget?, hattachments, hrecent]

/-- The link from the page of a post to the posts that it does not list. -/
def moreNote (context : FeedContext) : Markup :=
  .plain "p" [.link (context.root ++ "?page=2") [.text "See more"]]

/-- Whether this link is what stands at the end of a page's content, which is seen in its text. -/
def ShowsMore (context : FeedContext) (text : String) : Prop :=
  (moreNote context).print ++ Token.printAll (footing context) <:+ text.toList

section

variable (context : FeedContext) (title canonical : String) (summary : PageSummary)
  (content : List Markup)

theorem showsMore_shell : ShowsMore context
    (Markup.render (shell context title canonical summary (content ++ [moreNote context]))) := by
  obtain ⟨front, hfront⟩ :=
    exists_printAll_shell context title canonical summary content (moreNote context)
  rw [ShowsMore, Markup.render, String.toList_ofList, hfront]
  exact List.suffix_append front _

/-- An element of another name is not the link. -/
theorem not_showsMore_shell {name : String} (attributes : List Attribute) (children : List Markup)
    (hlength : (Markup.closingTag "p").length ≤ (Markup.closingTag name).length)
    (hname : ¬ Markup.closingTag "p" <:+ Markup.closingTag name) : ¬ ShowsMore context
      (Markup.render (shell context title canonical summary
        (content ++ [.element name attributes children]))) := by
  obtain ⟨front, hfront⟩ := exists_printAll_shell context title canonical summary content
    (.element name attributes children)
  rw [ShowsMore, Markup.render, String.toList_ofList, hfront, ← List.append_assoc,
    List.suffix_append_inj_of_length_eq rfl]
  rintro ⟨hnote, -⟩
  have hend : Markup.closingTag "p" <:+ (moreNote context).print := by
    rw [moreNote, Markup.plain, Markup.print]
    exact List.suffix_append _ _
  have hlast : Markup.closingTag name <:+
      front ++ (Markup.element name attributes children).print := by
    rw [Markup.print, ← List.append_assoc]
    exact List.suffix_append _ _
  -- Both closing tags end the same text, so the shorter one ends the longer one.
  exact hname (List.suffix_of_suffix_length_le (hend.trans hnote) hlast hlength)

end

theorem showsMore_post_iff {index : Index} (context : FeedContext) (h : index.IsShaped)
    {post : Post} (hpost : post ∈ index.posts) :
    ShowsMore context (Markup.render (Page.post context index post)) ↔
      recentCount < (others index post).length := by
  have hrecent := recentPosts_eq context h hpost
  let article := Markup.classed "article" "newsPost"
    (.verbatim post.card :: attachments post.attachments)
  have hpage : Page.post context index post = shell context post.titleOrDate
      (postUrl context.baseUrl post.sourceId) ⟨post.titleOrDate, post.description, "article",
        some (postUrl context.baseUrl post.sourceId ++ "/oembed.json")⟩
      (article :: recentPosts context index post) := rfl
  by_cases hmore : recentCount < (others index post).length
  · have hne : ¬ (others index post).isEmpty = true := fun hempty => by
      rw [List.isEmpty_iff.mp hempty] at hmore
      exact absurd hmore (Nat.not_lt_zero _)
    rw [if_neg hne, if_pos hmore] at hrecent
    rw [hpage, hrecent]
    exact iff_of_true (showsMore_shell context _ _ _ (article :: _)) hmore
  · refine iff_of_false ?_ hmore
    rw [if_neg hmore, List.append_nil] at hrecent
    obtain hnone | ⟨before, last, hlast⟩ :=
      List.eq_nil_or_concat' ((others index post).take recentCount)
    · have hempty := (List.take_eq_nil_iff.mp hnone).resolve_left (by decide)
      rw [hempty, List.isEmpty_nil, if_pos rfl] at hrecent
      rw [hpage, hrecent]
      exact not_showsMore_shell context _ _ _ [] _ _ (by decide) (by decide)
    · have hne : ¬ (others index post).isEmpty = true := fun hempty => by
        rw [List.isEmpty_iff.mp hempty, List.take_nil] at hlast
        cases before <;> cases hlast
      rw [if_neg hne, hlast, List.map_append, List.map_singleton] at hrecent
      rw [hpage, hrecent]
      exact not_showsMore_shell context _ _ _ (article :: _ :: before.map (card context)) _ _
        (by decide) (by decide)

/-- A row of keys without repeats goes on behind its first ones if one of them is not there. -/
theorem exists_notMem_map_take_iff {α β : Type} {items : List α} {key : α → β}
    (h : (items.map key).Nodup) (n : Nat) :
    (∃ item ∈ items, key item ∉ (items.take n).map key) ↔ n < items.length := by
  constructor
  · rintro ⟨item, hitem, hnot⟩
    refine Nat.lt_of_not_le fun hle => hnot ?_
    rw [List.take_of_length_le hle]
    exact List.mem_map_of_mem hitem
  · intro hlt
    have hsplit := List.take_append_drop n items
    obtain ⟨item, rest, hrest⟩ := List.exists_cons_of_length_pos
      (by rw [List.length_drop]; omega : 0 < (items.drop n).length)
    refine ⟨item, List.mem_of_mem_drop (i := n) (by rw [hrest]; exact List.mem_cons_self), ?_⟩
    rw [← hsplit, hrest, List.map_append, List.map_cons, List.nodup_append] at h
    exact fun hmem => h.2.2 _ hmem _ List.mem_cons_self rfl

/-- The page of a post leads on if it does not list all other posts. -/
theorem showsMore_post_iff_exists {index : Index} (context : FeedContext) (h : index.IsShaped)
    {post : Post} (hpost : post ∈ index.posts) :
    ShowsMore context (Markup.render (Page.post context index post)) ↔
      ∃ other ∈ index.posts, other.sourceId ≠ post.sourceId ∧
        context.pathTo ("/post/" ++ other.sourceId) ∉ listed (Page.post context index post) := by
  have hids : ((others index post).map
      fun other => context.pathTo ("/post/" ++ other.sourceId)).Nodup := by
    have haddress : Function.Injective fun id => context.pathTo ("/post/" ++ id) :=
      fun a b heq => (String.append_right_inj _).mp ((String.append_right_inj _).mp heq)
    have hothers : ((others index post).map Post.sourceId).Nodup :=
      h.nodup.sublist (List.filter_sublist.map Post.sourceId)
    have haddresses := hothers.map haddress
    rw [List.map_map] at haddresses
    exact haddresses
  rw [showsMore_post_iff context h hpost, ← exists_notMem_map_take_iff hids, listed_post]
  simp only [others, List.mem_filter, decide_eq_true_eq, and_assoc]

/-- In an index that is built from an archive, whichever page is asked for, the links of pagers lead
to the pages next to it on which there is something, and the page of a post leads on if some other
post is not listed on it. -/
theorem leadsOn_pages (channel : String) (documents : List Document) (resolver : Resolver)
    (options : PostOptions) (context : FeedContext) (index : Index)
    (hbuild : Index.build (Archive.ofDocuments channel documents).source resolver options () =
      (.ok index, ()))
    (hlength : index.posts.length < 2 ^ 63) :
    (∀ page : Int64, LeadsOn (Markup.render (listing context index page.toInt)) context.root page
      index.posts.length index.page) ∧
    (∀ (query : String) (page : Int64),
      LeadsOn (Markup.render (search context index query page.toInt))
        (context.pathTo (queryPart query)) page (index.search query page.toInt).1
        fun number => (index.search query number).2) ∧
    ∀ post ∈ index.posts,
      ShowsMore context (Markup.render (Page.post context index post)) ↔
        ∃ other ∈ index.posts, other.sourceId ≠ post.sourceId ∧
          context.pathTo ("/post/" ++ other.sourceId) ∉
            listed (Page.post context index post) := by
  obtain ⟨hfetch, hnodup, -⟩ := Archive.fetchAll_ofDocuments channel documents
  rw [Index.build, hfetch] at hbuild
  obtain rfl := Except.ok.inj (Prod.mk.inj hbuild).1
  have hshaped := @Index.isShaped_ofDocuments resolver options _ hnodup
  exact ⟨fun page => leadsOn_listing context _ page hlength,
    fun query page => leadsOn_search context _ query page hlength,
    fun post hpost => showsMore_post_iff_exists context hshaped hpost⟩

/-- The last page that can be asked for, of an index with one post. -/
theorem leadsOn_pages_last :
    let context : FeedContext := ⟨"News", "", "https://example.org", 1⟩
    ∃ index post, Index.build (Archive.ofDocuments "news" [hostile]).source Entities.empty.resolver
        ⟨.utc, []⟩ () = (.ok index, ()) ∧
      index.posts.length < 2 ^ 63 ∧ post ∈ index.posts ∧
      LeadsOn (Markup.render (listing context index Int64.maxValue.toInt)) "/" Int64.maxValue
        index.posts.length index.page ∧
      (ShowsMore context (Markup.render (Page.post context index post)) ↔
        ∃ other ∈ index.posts, other.sourceId ≠ post.sourceId ∧
          context.pathTo ("/post/" ++ other.sourceId) ∉
            listed (Page.post context index post)) := by
  intro context
  obtain ⟨index, hbuild, hpost⟩ := @Index.exists_build_singleton Entities.empty.resolver
    ⟨.utc, []⟩ "news" hostile (by decide)
  have hlength : index.posts.length < 2 ^ 63 :=
    Nat.lt_of_le_of_lt (Index.length_posts_le hbuild) (by decide)
  obtain ⟨hlistings, -, hposts⟩ := leadsOn_pages "news" [hostile] Entities.empty.resolver
    ⟨.utc, []⟩ context index hbuild hlength
  exact ⟨index, _, hbuild, hlength, hpost, hlistings Int64.maxValue, hposts _ hpost⟩

end Page
end Gazette
