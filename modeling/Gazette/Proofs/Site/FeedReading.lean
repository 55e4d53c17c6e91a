import Gazette.Proofs.Markup.Elements
import Gazette.Proofs.Site.Walks
import Gazette.Site.Feeds

/-!
# Feeds and sitemaps are read back

A feed is put together of names, addresses and titles that may be any texts, and of bodies that are
markup of another kind. A reader of XML gets all of them back (`entries?_rss`): texts come in through
escaping and bodies through sections of character data, so nothing in them ends an element or begins
one.
-/

namespace Gazette.FeedDocument

open Xml (Parses Tree field? isReadable leaf letters parse? tagOf text?_letters within)

/-! ### A reader of feeds -/

/-- What a feed tells of a post. -/
structure Entry where
  title : String
  link : String
  description : String
  guid : String
  deriving Repr, DecidableEq

/-- What stands in the only element of a document. -/
def root? (name : String) (s : List Char) : Option (List Tree) :=
  match parse? s with
  | some [.element tag children] => if tag.name = name then some children else none
  | _ => none

def entryAt? (item : List Tree) : Option Entry := do
  return {
    title := ← field? "title" item
    link := ← field? "link" item
    description := ← field? "description" item
    guid := ← field? "guid" item }

/-- The items of the only channel of a feed. -/
def entries? (s : List Char) : Option (List Entry) := do
  match within "channel" (← root? "rss" s) with
  | [channel] => (within "item" channel).mapM entryAt?
  | _ => none

/-- An address of a sitemap, and when it was changed if that is told. -/
def location? (url : List Tree) : Option (String × Option String) := do
  let address ← field? "loc" url
  match within "lastmod" url with
  | [] => return (address, none)
  | _ => return (address, ← field? "lastmod" url)

def locations? (s : List Char) : Option (List (String × Option String)) := do
  (within "url" (← root? "urlset" s)).mapM location?

/-! ### Pieces of documents -/

theorem parses_prolog : Parses prolog.print [] :=
  ⟨[], (by decide : Xml.Leads .content prolog.print .content []), Xml.builds_nil⟩

/-- The tag of the link from a feed to itself, as it is written. -/
def selfTag (address : String) : Tag :=
  ⟨"atom:link", [("href", some (Markup.escapeStrictly address.toList)), ("rel", some "self".toList),
    ("type", some "application/rss+xml".toList)], true⟩

theorem isClean_escapeStrictly (s : List Char) : IsClean (Markup.escapeStrictly s) := by
  intro x hx
  obtain ⟨c, -, hx⟩ := List.mem_flatMap.mp hx
  unfold Markup.escapeCharStrictly at hx
  split at hx
  · exact Body.isClean_of_decide (by decide) x hx
  · obtain ⟨hopen, hclose, hquote⟩ := Markup.mem_escapeChar hx
    exact ⟨hquote, hopen, hclose⟩

theorem isLexical_selfTag (address : String) : (selfTag address).IsLexical := by
  refine ⟨(by decide : isName "atom:link" = true), ?_⟩
  simp only [selfTag, List.forall_mem_cons, Option.mem_some_iff, forall_eq']
  exact ⟨⟨by decide, isClean_escapeStrictly _⟩, ⟨by decide, Body.isClean_of_decide (by decide)⟩,
    ⟨by decide, Body.isClean_of_decide (by decide)⟩, List.forall_mem_nil _⟩

theorem parses_selfLink (address : String) :
    Parses (Markup.printAll (selfLink address))
      [.element ((selfTag address).mapValues Markup.unescape) []] := by
  have hprint : Markup.printAll (selfLink address) = Token.print (.opening (selfTag address)) := by
    simp [selfLink, Markup.printAll, Markup.print, Token.print, Tag.inside, selfTag,
      Tag.printAttribute, Tag.ending]
  have hname : Xml.isTagName "atom:link" = true := by decide
  rw [hprint]
  exact ⟨_, Xml.reads_opening hname (isLexical_selfTag address), Xml.builds_empty rfl⟩

/-! ### Items -/

def itemTrees (index : Index) (baseUrl : String) (post : Post) : List Tree :=
  [leaf "title" [] post.titleOrDate.toList, leaf "link" [] (postUrl baseUrl post.sourceId).toList,
    leaf "description" [] ((index.body? post.sourceId).getD "").toList,
    leaf "pubDate" [] (Time.Pattern.mailDateTime.format post.createdAt),
    leaf "guid" [.value "isPermaLink" "false"] post.sourceId.toList]

theorem parses_feedItem (index : Index) (baseUrl : String) (post : Post) :
    Parses (index.feedItem baseUrl post).print
      [.element (tagOf "item" []) (itemTrees index baseUrl post)] := by
  have hdescription : Parses (Markup.print (.plain "description" [.verbatim
      (String.ofList (Markup.cdata ((index.body? post.sourceId).getD "").toList))]))
      [leaf "description" [] ((index.body? post.sourceId).getD "").toList] :=
    Xml.parses_element (by decide) (Xml.parses_cdata _)
  have hdate : Parses (Markup.print (.plain "pubDate"
      [.text (String.ofList (Time.Pattern.mailDateTime.format post.createdAt))])) _ :=
    Xml.parses_leaf (by decide) _
  rw [String.toList_ofList] at hdate
  exact Xml.parses_element (by decide)
    (Xml.parses_printAll_cons (Xml.parses_leaf (by decide) post.titleOrDate)
      (Xml.parses_printAll_cons (Xml.parses_leaf (by decide) (postUrl baseUrl post.sourceId))
        (Xml.parses_printAll_cons hdescription (Xml.parses_printAll_cons hdate
          (Xml.parses_printAll_cons (Xml.parses_leaf (by decide) post.sourceId)
            Xml.parses_printAll_nil)))))

/-- What a feed tells of a post of an index. -/
def entryOf (index : Index) (baseUrl : String) (post : Post) : Entry where
  title := post.titleOrDate
  link := postUrl baseUrl post.sourceId
  description := (index.body? post.sourceId).getD ""
  guid := post.sourceId

theorem entryAt?_itemTrees (index : Index) (baseUrl : String) (post : Post) :
    entryAt? (itemTrees index baseUrl post) = some (entryOf index baseUrl post) := by
  simp [entryAt?, itemTrees, entryOf, field?, within, leaf, tagOf, Markup.tag, Tag.mapValues,
    text?_letters]

/-! ### Feeds -/

/-- What stands in the channel of a feed before its items. -/
def channelTrees (context : FeedContext) : List Tree :=
  [leaf "title" [] context.siteName.toList,
    leaf "description" [] (context.siteName.toList ++ " RSS Feed".toList),
    leaf "link" [] context.baseUrl.toList,
    leaf "docs" [] "https://www.rssboard.org/rss-specification".toList,
    .element ((selfTag (context.baseUrl ++ "/feed.rss")).mapValues Markup.unescape) []]

theorem parses_twoTexts {name : String} (hname : isReadable name [] = true) (a b : String) :
    Parses (Markup.print (.plain name [.text a, .text b]))
      [leaf name [] (a.toList ++ b.toList)] := by
  have htexts := Xml.parses_printAll_cons (Xml.parses_text a)
    (Xml.parses_printAll_cons (Xml.parses_text b) Xml.parses_printAll_nil)
  have hletters : letters (a.toList ++ b.toList) = letters a.toList ++ (letters b.toList ++ []) := by
    rw [letters, List.map_append, List.append_nil]
    rfl
  rw [leaf, hletters]
  exact Xml.parses_element hname htexts

theorem parses_rss (context : FeedContext) (index : Index) (limit : Option Nat)
    (page : Option Int) :
    Parses (Markup.printAll (rss context index limit page))
      [.element (tagOf "rss"
          [.value "version" "2.0", .value "xmlns:atom" "http://www.w3.org/2005/Atom"])
        [.element (tagOf "channel" []) (channelTrees context ++
          (index.feedPosts limit page).map fun post =>
            .element (tagOf "item" []) (itemTrees index context.baseUrl post))]] := by
  have hitems : Parses (Markup.printAll (index.feedItems context.baseUrl limit page)) _ :=
    Xml.parses_printAll_map (index.feedPosts limit page)
      fun post => parses_feedItem index context.baseUrl post
  have hhead : Parses (Markup.printAll
      [.plain "title" [.text context.siteName],
        .plain "description" [.text context.siteName, .text " RSS Feed"],
        .plain "link" [.text context.baseUrl],
        .plain "docs" [.text "https://www.rssboard.org/rss-specification"]]) _ :=
    Xml.parses_printAll_cons (Xml.parses_leaf (by decide) context.siteName)
      (Xml.parses_printAll_cons (parses_twoTexts (by decide) context.siteName " RSS Feed")
        (Xml.parses_printAll_cons (Xml.parses_leaf (by decide) context.baseUrl)
          (Xml.parses_printAll_cons (Xml.parses_leaf (by decide) _) Xml.parses_printAll_nil)))
  have hchannel := Xml.parses_printAll_append
    (Xml.parses_printAll_append hhead (parses_selfLink (context.baseUrl ++ "/feed.rss"))) hitems
  have hrss : Parses (Markup.print (.plain "channel" _)) _ :=
    Xml.parses_element (by decide) hchannel
  exact Xml.parses_printAll_cons parses_prolog (Xml.parses_printAll_cons
    (Xml.parses_element (by decide) (Xml.parses_printAll_cons hrss Xml.parses_printAll_nil))
    Xml.parses_printAll_nil)

theorem mapM_map_eq {α β γ : Type} {f : α → β} {g : α → γ} {read? : β → Option γ}
    (h : ∀ a, read? (f a) = some (g a)) (items : List α) :
    (items.map f).mapM read? = some (items.map g) := by
  have hread : read? ∘ f = fun a => some (g a) := funext h
  rw [List.mapM_map, hread]
  exact List.mapM_pure

theorem within_map_element {α : Type} (name : String) (f : α → List Tree) (items : List α) :
    within name (items.map fun a => .element (tagOf name []) (f a)) = items.map f := by
  induction items with
  | nil => rfl
  | cons a items ih =>
    rw [List.map_cons, List.map_cons, ← ih]
    exact List.filterMap_cons_some (if_pos rfl)

theorem entries?_printAll_rss (context : FeedContext) (index : Index) (limit : Option Nat)
    (page : Option Int) :
    entries? (Markup.printAll (rss context index limit page)) =
      some ((index.feedPosts limit page).map (entryOf index context.baseUrl)) := by
  have hroot : root? "rss" (Markup.printAll (rss context index limit page)) = some
      [.element (tagOf "channel" []) (channelTrees context ++
        (index.feedPosts limit page).map fun post =>
          .element (tagOf "item" []) (itemTrees index context.baseUrl post))] := by
    rw [root?, (parses_rss context index limit page).parse?_eq]
    rfl
  have hhead : within "item" (channelTrees context) = [] := by
    simp [within, channelTrees, leaf, tagOf, Markup.tag, Tag.mapValues, selfTag]
  have hitems : within "item" (channelTrees context ++
        (index.feedPosts limit page).map fun post =>
          .element (tagOf "item" []) (itemTrees index context.baseUrl post)) =
      (index.feedPosts limit page).map (itemTrees index context.baseUrl) := by
    rw [within, List.filterMap_append, ← within, ← within, hhead, List.nil_append,
      within_map_element]
  rw [entries?, hroot, Option.bind_eq_bind, Option.bind_some]
  change (within "item" _).mapM entryAt? = _
  rw [hitems]
  exact mapM_map_eq (entryAt?_itemTrees index context.baseUrl) _

/-! ### Sitemaps -/

def urlTrees (entry : SitemapEntry) : List Tree :=
  [leaf "loc" [] entry.location.toList, leaf "lastmod" [] entry.lastChange.toList]

theorem parses_sitemap (context : FeedContext) (index : Index) :
    Parses (Markup.printAll (sitemap context index))
      [.element (tagOf "urlset" [.value "xmlns" "http://www.sitemaps.org/schemas/sitemap/0.9"])
        (.element (tagOf "url" []) [leaf "loc" [] (context.baseUrl.toList ++ "/".toList)] ::
          (index.sitemapEntries context.baseUrl).map fun entry =>
            .element (tagOf "url" []) (urlTrees entry))] := by
  have hentry : ∀ entry : SitemapEntry, Parses (Markup.print (.plain "url"
      [.plain "loc" [.text entry.location], .plain "lastmod" [.text entry.lastChange]]))
      [.element (tagOf "url" []) (urlTrees entry)] := fun entry =>
    Xml.parses_element (by decide) (Xml.parses_printAll_cons
      (Xml.parses_leaf (by decide) entry.location) (Xml.parses_printAll_cons
        (Xml.parses_leaf (by decide) entry.lastChange) Xml.parses_printAll_nil))
  have hroot : Parses (Markup.print (.plain "url"
      [.plain "loc" [.text context.baseUrl, .text "/"]])) _ :=
    Xml.parses_element (by decide) (Xml.parses_printAll_cons
      (parses_twoTexts (by decide) context.baseUrl "/") Xml.parses_printAll_nil)
  exact Xml.parses_printAll_cons parses_prolog (Xml.parses_printAll_cons
    (Xml.parses_element (by decide) (Xml.parses_printAll_cons hroot
      (Xml.parses_printAll_map (index.sitemapEntries context.baseUrl) hentry)))
    Xml.parses_printAll_nil)

theorem location?_urlTrees (entry : SitemapEntry) :
    location? (urlTrees entry) = some (entry.location, some entry.lastChange) := by
  simp [location?, urlTrees, field?, within, leaf, tagOf, Markup.tag, Tag.mapValues, text?_letters]

theorem locations?_printAll_sitemap (context : FeedContext) (index : Index) :
    locations? (Markup.printAll (sitemap context index)) =
      some ((context.baseUrl ++ "/", none) ::
        (index.sitemapEntries context.baseUrl).map fun entry =>
          (entry.location, some entry.lastChange)) := by
  have hroot : root? "urlset" (Markup.printAll (sitemap context index)) = some
      (.element (tagOf "url" []) [leaf "loc" [] (context.baseUrl.toList ++ "/".toList)] ::
        (index.sitemapEntries context.baseUrl).map fun entry =>
          .element (tagOf "url" []) (urlTrees entry)) := by
    rw [root?, (parses_sitemap context index).parse?_eq]
    rfl
  have hfirst : location? [leaf "loc" [] (context.baseUrl.toList ++ "/".toList)] =
      some (context.baseUrl ++ "/", none) := by
    simp [location?, field?, within, leaf, tagOf, Markup.tag, Tag.mapValues, text?_letters]
  have hurls : ∀ (first : List Tree) (rest : List Tree),
      within "url" (.element (tagOf "url" []) first :: rest) = first :: within "url" rest :=
    fun _ _ => List.filterMap_cons_some (if_pos rfl)
  rw [locations?, hroot, Option.bind_eq_bind, Option.bind_some, hurls, within_map_element,
    List.mapM_cons, hfirst, mapM_map_eq location?_urlTrees]
  rfl

/-! ### Indexes of archives -/

/-- The feed and the sitemap of an index that is built from an archive tell of its posts what the index
holds, in its order, whatever the texts in them and in the context of the feed are. -/
theorem entries?_rss (channel : String) (documents : List Document) (resolver : Resolver)
    (options : PostOptions) :
    ∃ index, Index.build (Archive.ofDocuments channel documents).source resolver options () =
        (.ok index, ()) ∧
      (∀ post ∈ index.posts, ∃ document ∈ documents, ∃ body,
        Post.ofDocument resolver options document = (post, body) ∧
        index.body? post.sourceId = some body) ∧
      ∀ context : FeedContext,
        (∀ limit page, entries? (Markup.render (rss context index limit page)).toList =
          some ((index.feedPosts limit page).map fun post =>
            { title := post.titleOrDate
              link := postUrl context.baseUrl post.sourceId
              description := (index.body? post.sourceId).getD ""
              guid := post.sourceId })) ∧
        locations? (Markup.render (sitemap context index)).toList =
          some ((context.baseUrl ++ "/", none) :: index.posts.map fun post =>
            (postUrl context.baseUrl post.sourceId, some (String.ofList
              (Time.Pattern.isoDate.format (post.editedAt.getD post.createdAt))))) := by
  obtain ⟨hfetch, hnodup, hmem, -⟩ := Archive.fetchAll_ofDocuments channel documents
  refine ⟨Index.ofDocuments resolver options (Archive.ofDocuments channel documents).history, ?_,
    fun post hpost => ?_, fun context => ⟨fun limit page => ?_, ?_⟩⟩
  · rw [Index.build, hfetch]
    rfl
  · obtain ⟨document, hdocument, hbody⟩ := Index.exists_body_ofDocuments hnodup hpost
    exact ⟨document, hmem document hdocument, hbody⟩
  · rw [Markup.render, String.toList_ofList]
    exact entries?_printAll_rss context _ limit page
  · rw [Markup.render, String.toList_ofList, locations?_printAll_sitemap, Index.sitemapEntries,
      List.map_map]
    rfl

/-- A document whose texts would end the elements and the section that they stand in. -/
def closing : Document :=
  ⟨"</guid>", none, ⟨"1", none, "ada"⟩, ⟨0, 0⟩, none, "", [.text "# ]]></title>&amp;"], []⟩

theorem entries?_rss_closing :
    let context : FeedContext := ⟨"</channel>", "", "https://a.org/?a&b", 1⟩
    ∃ index body, Index.build (Archive.ofDocuments "news" [closing]).source Entities.empty.resolver
        ⟨.utc, []⟩ () = (.ok index, ()) ∧
      let post := (Post.ofDocument Entities.empty.resolver ⟨.utc, []⟩ closing).1
      post ∈ index.posts ∧ index.body? post.sourceId = some body ∧
      entries? (Markup.render (rss context index none none)).toList =
        some (index.posts.map (entryOf index context.baseUrl)) ∧
      entryOf index context.baseUrl post =
        ⟨"]]></title>&amp;", "https://a.org/?a&b/post/</guid>", body, "</guid>"⟩ := by
  intro context
  obtain ⟨index, hbuild, hposts, hread⟩ :=
    entries?_rss "news" [closing] Entities.empty.resolver ⟨.utc, []⟩
  obtain ⟨found, hfound, hpost⟩ := @Index.exists_build_singleton Entities.empty.resolver ⟨.utc, []⟩
    "news" closing (by decide)
  obtain rfl : index = found := Except.ok.inj (Prod.mk.inj (hbuild.symm.trans hfound)).1
  obtain ⟨document, hdocument, body, hrendered, hbody⟩ := hposts _ hpost
  have htitle : (Post.ofDocument Entities.empty.resolver ⟨.utc, []⟩ closing).1.titleOrDate =
      "]]></title>&amp;" := by decide +kernel
  have hlink : postUrl context.baseUrl "</guid>" = "https://a.org/?a&b/post/</guid>" := by
    decide +kernel
  refine ⟨index, body, hbuild, hpost, hbody, (hread context).1 none none, ?_⟩
  rw [entryOf, hbody, htitle, ← hlink]
  rfl

end Gazette.FeedDocument
