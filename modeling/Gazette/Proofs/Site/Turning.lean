import Gazette.Proofs.Site.Addresses
import Gazette.Proofs.Site.Pagers

/-!
# Turning pages of hits

A page of hits has links to the pages before and behind it. The query and the number of the page are
encoded in their targets, and these are escaped in the text of the page; what is read from the text,
unescaped, leads to a request from which the same query is decoded and the number of the page next to
it (`answer_turned`).
-/

namespace Gazette

open Text.Percent (IsPlain encode)

/-! ### The number of hits -/

namespace Paging

/-- A page that has another one behind it has a number that can be written in a query. -/
theorem succ_le_of_hasNext {page : Int} {count : Nat} (hcount : count ≤ largest)
    (h : hasNext page count Index.pageSize = true) : page + 1 ≤ Site.largestPage := by
  have hlt : (max page 1).toNat < (count + 49) / 50 := of_decide_eq_true h
  have hword : Nat.pow 2 64 = 18446744073709551616 := rfl
  have hpage : Nat.pow 2 63 = 9223372036854775808 := rfl
  rw [largest, hword] at hcount
  rw [Site.largestPage, hpage]
  omega

end Paging

theorem Search.length_hits_le (posts : List Post) (query : String) :
    (hits posts query).length ≤ posts.length := by
  unfold hits
  dsimp only
  split
  · exact Nat.zero_le _
  · exact List.length_filter_le _ _

/-! ### Queries for hits -/

namespace Site

/-- The query for a page of hits. -/
def hitsQuery (query : String) (page : Int) : List Char :=
  Text.Query.write [("query", query), ("page", Text.decimal page)]

variable {site : Site} {request : Request} {feed shown : Feed} {query : String} {page : Int}

theorem hitsQuery_eq (query : String) (hpage : 0 ≤ page) :
    hitsQuery query page = "query=".toList ++ encode query.toList ++
      '&' :: ("page=".toList ++ (Text.decimal page).toList) := by
  have hname : IsPlain "query".toList := List.all_eq_true.mp (by decide)
  have hsign : "query=".toList = "query".toList ++ ['='] := by decide
  rw [hitsQuery, Text.Query.write_cons_cons, write_pageField hpage, Text.Query.writeField,
    hname.encode_eq, hsign, List.append_assoc]
  rfl

theorem notMem_hitsQuery (query : String) (page : Int) : '#' ∉ hitsQuery query page := fun hmem =>
  (Text.Query.mem_write hmem).elim (by decide) (by decide)

/-- A query without blanks around it is looked for, be it read from an encoded text. -/
theorem replyTo_search (site : Site) (feed : Feed) (name : Option (List Char))
    (htrim : Text.trimmed query = query) (hne : query ≠ "") (hpage : 1 ≤ page)
    (hbound : page ≤ largestPage) :
    site.replyTo feed name .search (hitsQuery query page) = .page (.search query page) := by
  have hrepeated : repeatedField? (knownFields .search) []
      [("query", query), ("page", Text.decimal page)] = none := by
    simp [repeatedField?, knownFields]
  have hfirst : [("query", query), ("page", Text.decimal page)].lookup "query" = some query :=
    List.lookup_cons_self
  have hsecond : [("query", query), ("page", Text.decimal page)].lookup "page" =
      some (Text.decimal page) := by
    rw [List.lookup_cons, show ("page" == "query") = false by decide]
    exact List.lookup_cons_self
  rw [replyTo, hitsQuery, Text.Query.parse_write, hrepeated]
  dsimp only [routeReply, searchReply]
  rw [hfirst, hsecond, Option.getD_some, htrim, if_neg hne, pageNumber_decimal hpage hbound]

/-! ### Links -/

theorem toList_pageAddress (context : FeedContext) (query : String) (hpage : 0 ≤ page) :
    (Page.pageAddress (context.pathTo (Page.queryPart query)) page).toList =
      context.path.toList ++ "/search".toList ++ '?' :: hitsQuery query page := by
  have hstart : "/search?query=".toList = "/search".toList ++ '?' :: "query=".toList := by decide
  have hbase : (context.pathTo (Page.queryPart query)).toList =
      context.path.toList ++ "/search".toList ++
        '?' :: ("query=".toList ++ encode query.toList) := by
    rw [FeedContext.pathTo, String.toList_append, Page.queryPart, String.toList_append, hstart,
      @String.toList_ofList (encode query.toList), List.append_assoc, List.append_assoc,
      List.cons_append]
  have hjoined : (context.pathTo (Page.queryPart query)).toList.contains '?' = true := by
    rw [hbase]
    simp
  rw [Page.pageAddress, if_pos hjoined, String.toList_append, String.toList_append,
    String.toList_append, hbase, hitsQuery_eq query hpage]
  simp only [List.append_assoc, List.cons_append]
  rfl

/-- At the address that is given for a page of hits, the page is answered. -/
theorem Reached.answer_hits (h : Reached site) (hfeed : site.feed? feed.name = some feed)
    (htrim : Text.trimmed query = query) (hne : query ≠ "") (hpage : 1 ≤ page)
    (hbound : page ≤ largestPage) (hmethod : request.method = "GET")
    (hname : shown.name = feed.name)
    (htarget : request.target =
      Page.pageAddress ((site.context shown).pathTo (Page.queryPart query)) page)
    (directory : Directory) :
    (site.answer directory request).2 =
      site.document Response.htmlType ((FeedPage.search query page).render site feed) := by
  have hlist : request.target.toList =
      (site.config.feedPath feed.name).toList ++ '/' :: "search".toList ++
        '?' :: hitsQuery query page := by
    rw [htarget, toList_pageAddress _ _ (by omega), context, hname]
    rfl
  have hroute : FeedRoute.ofSegments? (List.splitOn '/' "search".toList) = some .search := by decide
  obtain ⟨hquery, name, hpath, -, hcurrent⟩ := h.currentFeed_below hfeed hroute rfl hlist
    (by decide) (.inr rfl) (by simp [notMem_hitsQuery])
  rw [h.sound.answer_feed hmethod hpath hcurrent, hquery]
  change site.responseOf feed (site.replyTo feed name .search (hitsQuery query page)) = _
  rw [replyTo_search site feed name htrim hne hpage hbound]
  rfl

/-- Whether the text of a page has a link in its pager that leads to a page of a feed's hits. -/
def LeadsTo (site : Site) (directory : Directory) (feed : Feed) (text label query : String)
    (page : Int) : Prop :=
  ∃ target, Page.pagerTarget? text label = some target ∧
    ∀ request : Request, request.method = "GET" → request.target = target →
      (site.answer directory request).2 =
        site.document Response.htmlType ((FeedPage.search query page).render site feed)

theorem pagerTarget?_render (site : Site) (shown : Feed) (query : String) (hpage : 1 ≤ page) :
    let text := (FeedPage.search query page).render site shown
    let base := (site.context shown).pathTo (Page.queryPart query)
    Page.pagerTarget? text "Previous Page" =
        (if 1 < page then some (Page.pageAddress base (page - 1)) else none) ∧
      Page.pagerTarget? text "Next Page" =
        (if Paging.hasNext page (shown.slot.index.search query page).1 Index.pageSize then
          some (Page.pageAddress base (page + 1)) else none) := by
  dsimp only
  rw [FeedPage.render, FeedPage.markup, Page.search, Int.max_eq_left hpage]
  exact Page.pagerTarget?_shell _ _ _ _ (_ :: _) _ _ _

/-- Whatever the index of a feed was when a page of hits was rendered, the page has a link to the page
before it unless it is the first one, and a link to the page behind it if there are more hits. The
same feed answers there with that page of hits for the same query. -/
theorem answer_turned (h : Reached site) (directory : Directory)
    (hshown : shown.name ∈ site.config.feeds)
    (hlength : shown.slot.index.posts.length ≤ Paging.largest)
    (htrim : Text.trimmed query = query) (hne : query ≠ "") (hpage : 1 ≤ page)
    (hbound : page ≤ largestPage) :
    ∃ feed, site.feed? shown.name = some feed ∧
      let text := (FeedPage.search query page).render site shown
      (if 1 < page then site.LeadsTo directory feed text "Previous Page" query (page - 1)
        else Page.pagerTarget? text "Previous Page" = none) ∧
      if Paging.hasNext page (shown.slot.index.search query page).1 Index.pageSize then
        site.LeadsTo directory feed text "Next Page" query (page + 1)
      else Page.pagerTarget? text "Next Page" = none := by
  obtain ⟨feed, hfeed⟩ := h.exists_feed? hshown
  have hname := name_of_feed? hfeed
  have hcurrent : site.feed? feed.name = some feed := by rwa [hname]
  obtain ⟨hprevious, hnext⟩ := site.pagerTarget?_render shown query hpage
  refine ⟨feed, hfeed, ?_, ?_⟩
  · split
    · next hlater =>
      rw [if_pos hlater] at hprevious
      exact ⟨_, hprevious, fun request hmethod htarget => h.answer_hits hcurrent htrim hne
        (by omega) (by omega) hmethod hname.symm htarget directory⟩
    · next hfirst =>
      rw [if_neg hfirst] at hprevious
      exact hprevious
  · split
    · next hmore =>
      have hhits := Nat.le_trans (Search.length_hits_le shown.slot.index.posts query) hlength
      have hnumber := Paging.succ_le_of_hasNext hhits hmore
      rw [if_pos hmore] at hnext
      exact ⟨_, hnext, fun request hmethod htarget => h.answer_hits hcurrent htrim hne
        (by omega) hnumber hmethod hname.symm htarget directory⟩
    · next hlast =>
      rw [if_neg hlast] at hnext
      exact hnext

/-- The middle one of three pages, with a query that no part of an address or a page may hold. -/
theorem answer_turned_middle :
    ∃ (site : Site) (directory : Directory) (shown feed : Feed) (query text : String),
      Reached site ∧ shown.name ∈ site.config.feeds ∧
      shown.slot.index.posts.length ≤ Paging.largest ∧ query = "r&d +1% #\"é?" ∧
      Text.trimmed query = query ∧ query ≠ "" ∧
      text = (FeedPage.search query 2).render site shown ∧
      site.feed? shown.name = some feed ∧
      site.LeadsTo directory feed text "Previous Page" query 1 ∧
      site.LeadsTo directory feed text "Next Page" query 3 := by
  let query := "r&d +1% #\"é?"
  let post : Post := { (default : Post) with card := "r&amp;d +1% #&quot;é?" }
  let index : Index := ⟨3, List.replicate 101 post, []⟩
  let shown : Feed := { sampleFeed with slot := { sampleFeed.slot with index } }
  have hshown : shown.name ∈ sampleConfig.feeds := by decide
  have hlength : shown.slot.index.posts.length ≤ Paging.largest := by decide
  have htrim : Text.trimmed query = query := by decide +kernel
  have hmore : Paging.hasNext 2 (shown.slot.index.search query 2).1 Index.pageSize = true := by
    decide +kernel
  have hquery : query = "r&d +1% #\"é?" := rfl
  have hne : query ≠ "" := by decide
  have hpage : (1 : Int) < 2 ∧ (2 : Int) ≤ largestPage := by decide
  -- What the index holds has been counted, and is not looked at again.
  clear_value shown query
  obtain ⟨feed, hfeed, hprevious, hnext⟩ := answer_turned reached_sample (fun _ => .endless) hshown
    hlength htrim hne (Int.le_of_lt hpage.1) hpage.2
  rw [if_pos hpage.1] at hprevious
  rw [if_pos hmore] at hnext
  exact ⟨_, _, shown, feed, query, _, reached_sample, hshown, hlength, hquery, htrim, hne, rfl,
    hfeed, hprevious, hnext⟩

end Site

end Gazette
