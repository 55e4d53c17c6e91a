import Gazette.Index.Basic
import Gazette.Proofs.Document.Walk

/-!
# Indexes of archives

An index that is built from an archive has one post for each document that a walk over the archive
comes to and that may be shown, the newest first, and under each id the post and the body of one and
the same document (`build_archive`). `IsIndexOf` says what an index of documents is, whatever it was
built from.
-/

namespace Gazette

/-! ### Tables without repeats -/

namespace Table

variable {α : Type}

theorem put_of_notMem {name : String} {table : Table α} (h : name ∉ table.map Prod.fst) (value : α) :
    put name value table = table ++ [(name, value)] := by
  induction table with
  | nil => rfl
  | cons entry rest ih =>
    obtain ⟨other, old⟩ := entry
    simp only [List.map_cons, List.mem_cons, not_or] at h
    rw [put, if_neg (Ne.symm h.1), ih h.2, List.cons_append]

theorem foldl_put_eq_append (table : Table α) {entries : List (String × α)}
    (h : ((table ++ entries).map Prod.fst).Nodup) :
    entries.foldl (fun table entry => put entry.1 entry.2 table) table = table ++ entries := by
  induction entries generalizing table with
  | nil => rw [List.foldl_nil, List.append_nil]
  | cons entry rest ih =>
    have hnew : entry.1 ∉ table.map Prod.fst := by
      rw [List.map_append, List.nodup_append] at h
      intro hmem
      exact h.2.2 entry.1 hmem entry.1 List.mem_cons_self rfl
    have hsplit : table ++ entry :: rest = (table ++ [entry]) ++ rest := by
      rw [List.append_assoc, List.singleton_append]
    rw [List.foldl_cons, put_of_notMem hnew, hsplit]
    exact ih (table ++ [entry]) (hsplit ▸ h)

/-- Entries of different names make up their table as they are. -/
theorem ofEntries_eq_self {entries : List (String × α)} (h : (entries.map Prod.fst).Nodup) :
    ofEntries entries = entries :=
  foldl_put_eq_append [] h

end Table

namespace Index

variable {resolver : Resolver} {options : PostOptions} {documents : List Document}

/-! ### The order of posts -/

/-- Whether a post stands before another one: it is later, or has the larger id at the same time. -/
def Precedes (a b : Post) : Prop :=
  (Time.Instant.compare b.createdAt a.createdAt).then (compareIds b.sourceId a.sourceId) = .lt

theorem comesBefore_iff {a b : Document} :
    comesBefore a b = true ↔
      b.createdAt.seconds < a.createdAt.seconds ∨ b.createdAt.seconds = a.createdAt.seconds ∧
        (b.createdAt.nanos < a.createdAt.nanos ∨ b.createdAt.nanos = a.createdAt.nanos ∧
          rank b.id ≤ rank a.id) := by
  rw [comesBefore, decide_eq_true_eq, Ne, Time.Instant.compare, compareIds_eq_compare]
  simp only [Ordering.then_eq_gt, Ordering.then_eq_eq, Int.compare_eq_gt, Int.compare_eq_eq,
    Nat.compare_eq_gt, Nat.compare_eq_eq]
  omega

theorem pairwise_sortNewestFirst (documents : List Document) :
    (sortNewestFirst documents).Pairwise fun a b => comesBefore a b = true := by
  refine List.pairwise_mergeSort (fun a b c hab hbc => ?_) (fun a b => ?_) documents
  · rw [comesBefore_iff] at hab hbc ⊢
    omega
  · rw [Bool.or_eq_true, comesBefore_iff, comesBefore_iff]
    omega

theorem sortNewestFirst_perm (documents : List Document) :
    (sortNewestFirst documents).Perm documents :=
  List.mergeSort_perm documents comesBefore

/-! ### Looking up by id -/

theorem find?_id_eq_some_iff (h : (documents.map Document.id).Nodup) {id : String}
    {document : Document} :
    documents.find? (·.id == id) = some document ↔ document ∈ documents ∧ document.id = id := by
  have hid : ∀ {found}, documents.find? (·.id == id) = some found → found.id = id := by
    intro found hfound
    have hmatch := List.find?_some hfound
    exact beq_iff_eq.mp hmatch
  constructor
  · intro hfind
    exact ⟨List.mem_of_find?_eq_some hfind, hid hfind⟩
  · rintro ⟨hmem, hdocument⟩
    obtain ⟨found, hfound⟩ : ∃ found, documents.find? (·.id == id) = some found :=
      Option.isSome_iff_exists.mp
        (List.find?_isSome.mpr ⟨document, hmem, beq_iff_eq.mpr hdocument⟩)
    have hsame : found = document :=
      List.inj_on_of_nodup_map h (List.mem_of_find?_eq_some hfound) hmem
        ((hid hfound).trans hdocument.symm)
    rw [hfound, hsame]

theorem lookup_eq_map_find? {α : Type} (key : α → String) (value : α → String) (items : List α)
    (id : String) :
    (items.map fun item => (key item, value item)).lookup id =
      (items.find? (key · == id)).map value := by
  induction items with
  | nil => rfl
  | cons item rest ih =>
    by_cases h : key item = id
    · simp [h]
    · have hne : (id == key item) = false := by simpa using Ne.symm h
      simp [List.lookup_cons, hne, h, ih]

/-! ### The index of some documents -/

/-- What an index shows of some documents, of which no two share an id. -/
structure IsIndexOf (resolver : Resolver) (options : PostOptions) (documents : List Document)
    (index : Index) : Prop where
  /-- A document has a post if it is neither a tombstone nor on the blacklist. -/
  mem_iff : ∀ id, id ∈ index.posts.map Post.sourceId ↔
    ∃ document ∈ documents, document.id = id ∧ document.isTombstone = false ∧
      id ∉ options.blacklist
  /-- No id has two posts. -/
  nodup : (index.posts.map Post.sourceId).Nodup
  ordered : index.posts.Pairwise Precedes
  /-- Those ids have bodies that have posts. -/
  keys : index.bodies.map Prod.fst = index.posts.map Post.sourceId
  /-- The post and the body of an id are those of one document, or there is neither. -/
  view : ∀ id, index.view? id =
    ((documents.filter (isShown options)).find? (·.id == id)).map
      (Post.ofDocument resolver options)

theorem isShown_iff {document : Document} :
    isShown options document = true ↔
      document.isTombstone = false ∧ document.id ∉ options.blacklist := by
  rw [isShown, Bool.and_eq_true, Bool.not_eq_true', Bool.not_eq_true', List.contains_eq_mem,
    decide_eq_false_iff_not]

theorem mem_posts_ofDocuments {post : Post} :
    post ∈ (ofDocuments resolver options documents).posts ↔
      ∃ document ∈ documents, isShown options document = true ∧
        (Post.ofDocument resolver options document).1 = post := by
  rw [ofDocuments, List.map_map, List.mem_map]
  constructor
  · rintro ⟨document, hdocument, rfl⟩
    obtain ⟨hmem, hshown⟩ :=
      List.mem_filter.mp ((sortNewestFirst_perm _).mem_iff.mp hdocument)
    exact ⟨document, hmem, hshown, rfl⟩
  · rintro ⟨document, hmem, hshown, rfl⟩
    exact ⟨document, (sortNewestFirst_perm _).mem_iff.mpr (List.mem_filter.mpr ⟨hmem, hshown⟩), rfl⟩

theorem sourceId_posts_ofDocuments :
    (ofDocuments resolver options documents).posts.map Post.sourceId =
      (sortNewestFirst (documents.filter (isShown options))).map Document.id := by
  rw [ofDocuments, List.map_map, List.map_map]
  rfl

theorem nodup_shown (h : (documents.map Document.id).Nodup) :
    ((sortNewestFirst (documents.filter (isShown options))).map Document.id).Nodup :=
  ((sortNewestFirst_perm _).map Document.id).nodup_iff.mpr
    (h.sublist (List.filter_sublist.map Document.id))

theorem bodies_ofDocuments (h : (documents.map Document.id).Nodup) :
    (ofDocuments resolver options documents).bodies =
      (sortNewestFirst (documents.filter (isShown options))).map fun document =>
        (document.id, (Post.ofDocument resolver options document).2) := by
  rw [ofDocuments, List.map_map, List.map_map]
  refine Table.ofEntries_eq_self ?_
  rw [List.map_map]
  exact nodup_shown h

theorem precedes_of_comesBefore {a b : Document} (h : comesBefore a b = true) (hid : a.id ≠ b.id) :
    Precedes (Post.ofDocument resolver options a).1 (Post.ofDocument resolver options b).1 := by
  change (Time.Instant.compare b.createdAt a.createdAt).then (compareIds b.id a.id) = .lt
  have hne := of_decide_eq_true h
  cases hcompare : (Time.Instant.compare b.createdAt a.createdAt).then (compareIds b.id a.id) with
  | lt => rfl
  | eq => exact absurd (eq_of_compareIds_eq (Ordering.then_eq_eq.mp hcompare).2).symm hid
  | gt => exact absurd hcompare hne

theorem ordered_ofDocuments (h : (documents.map Document.id).Nodup) :
    (ofDocuments resolver options documents).posts.Pairwise Precedes := by
  rw [ofDocuments, List.map_map, List.pairwise_map]
  have hids : (sortNewestFirst (documents.filter (isShown options))).Pairwise
      fun a b => a.id ≠ b.id := List.pairwise_map.mp (nodup_shown h)
  exact (pairwise_sortNewestFirst _).imp₂ (fun a b hbefore hne => precedes_of_comesBefore hbefore hne)
    hids

theorem view?_ofDocuments (h : (documents.map Document.id).Nodup) (id : String) :
    (ofDocuments resolver options documents).view? id =
      ((documents.filter (isShown options)).find? (·.id == id)).map
        (Post.ofDocument resolver options) := by
  let shown := sortNewestFirst (documents.filter (isShown options))
  have hpost : (ofDocuments resolver options documents).post? id =
      (shown.find? (·.id == id)).map fun document =>
        (Post.ofDocument resolver options document).1 := by
    rw [post?, ofDocuments, List.map_map, List.find?_map]
    rfl
  have hbody : (ofDocuments resolver options documents).body? id =
      (shown.find? (·.id == id)).map fun document =>
        (Post.ofDocument resolver options document).2 := by
    rw [body?, bodies_ofDocuments h]
    exact lookup_eq_map_find? Document.id _ shown id
  have hfind : shown.find? (·.id == id) =
      (documents.filter (isShown options)).find? (·.id == id) := by
    refine Option.ext fun document => ?_
    rw [find?_id_eq_some_iff (nodup_shown h),
      find?_id_eq_some_iff (h.sublist (List.filter_sublist.map Document.id)),
      (sortNewestFirst_perm _).mem_iff]
  rw [view?, hpost, hbody, hfind]
  cases (documents.filter (isShown options)).find? (·.id == id) <;> rfl

/-- The body that an index holds for a post was made of the same document. -/
theorem exists_body_ofDocuments (h : (documents.map Document.id).Nodup) {post : Post}
    (hpost : post ∈ (ofDocuments resolver options documents).posts) :
    ∃ document ∈ documents, ∃ body, Post.ofDocument resolver options document = (post, body) ∧
      (ofDocuments resolver options documents).body? post.sourceId = some body := by
  obtain ⟨document, hdocument, hshown, rfl⟩ := mem_posts_ofDocuments.mp hpost
  have hfind : (documents.filter (isShown options)).find? (·.id == document.id) = some document :=
    (find?_id_eq_some_iff (h.sublist (List.filter_sublist.map Document.id))).mpr
      ⟨List.mem_filter.mpr ⟨hdocument, hshown⟩, rfl⟩
  have hview := @view?_ofDocuments resolver options _ h document.id
  rw [hfind, view?] at hview
  obtain ⟨found, -, hbody⟩ := Option.bind_eq_some_iff.mp hview
  obtain ⟨body, hbody, heq⟩ := Option.bind_eq_some_iff.mp hbody
  obtain ⟨-, rfl⟩ := Prod.mk.inj (Option.some.inj heq)
  exact ⟨document, hdocument, _, rfl, hbody⟩

theorem isIndexOf_ofDocuments (h : (documents.map Document.id).Nodup) :
    IsIndexOf resolver options documents (ofDocuments resolver options documents) where
  mem_iff := by
    intro id
    rw [List.mem_map]
    constructor
    · rintro ⟨post, hpost, rfl⟩
      obtain ⟨document, hmem, hshown, rfl⟩ := mem_posts_ofDocuments.mp hpost
      exact ⟨document, hmem, rfl, isShown_iff.mp hshown⟩
    · rintro ⟨document, hmem, rfl, hshown⟩
      exact ⟨_, mem_posts_ofDocuments.mpr ⟨document, hmem, isShown_iff.mpr hshown, rfl⟩, rfl⟩
  nodup := by
    rw [sourceId_posts_ofDocuments]
    exact nodup_shown h
  ordered := ordered_ofDocuments h
  keys := by
    rw [sourceId_posts_ofDocuments, bodies_ofDocuments h, List.map_map]
    rfl
  view := view?_ofDocuments h

/-! ### Building from an archive -/

/-- The index of an archive of one document has its post, if it may be shown. -/
theorem exists_build_singleton (channel : String) {document : Document}
    (h : isShown options document = true) :
    ∃ index, build (Archive.ofDocuments channel [document]).source resolver options () =
        (.ok index, ()) ∧
      (Post.ofDocument resolver options document).1 ∈ index.posts := by
  obtain ⟨history, hfetch, -, hmem, hcover⟩ :=
    Archive.exists_fetchAll (Archive.descends_ofDocuments channel [document])
  obtain ⟨kept, hkept, -⟩ := hcover document
    ((Archive.mem_ofDocuments channel _).mpr (List.mem_singleton_self document))
  obtain rfl := List.mem_singleton.mp ((Archive.mem_ofDocuments channel _).mp (hmem kept hkept))
  refine ⟨ofDocuments resolver options history, ?_, mem_posts_ofDocuments.mpr ⟨kept, hkept, h, rfl⟩⟩
  rw [build, hfetch]
  rfl

/-- Building an index from an archive of any documents succeeds. A walk comes to one document of each
id, and the index is one of these documents. Where no id occurs twice in the first place, it does
not matter in which order the documents were given. -/
theorem build_archive (channel : String) (documents : List Document) (resolver : Resolver)
    (options : PostOptions) :
    ∃ history index,
      History.fetchAll (Archive.ofDocuments channel documents).source () = (.ok history, ()) ∧
      build (Archive.ofDocuments channel documents).source resolver options () =
        (.ok index, ()) ∧
      (history.map Document.id).Nodup ∧
      (∀ document ∈ history, document ∈ documents) ∧
      (∀ document ∈ documents, ∃ kept ∈ history, kept.id = document.id) ∧
      IsIndexOf resolver options history index ∧
      ∀ other, documents.Perm other → (documents.map Document.id).Nodup →
        build (Archive.ofDocuments channel other).source resolver options () =
          (.ok index, ()) := by
  obtain ⟨history, hfetch, hordered, hmem, hcover⟩ :=
    Archive.exists_fetchAll (Archive.descends_ofDocuments channel documents)
  have hnodup : (history.map Document.id).Nodup := by
    refine List.pairwise_map.mpr (hordered.imp fun {a b} hlt heq => ?_)
    rw [heq, compareIds_eq_lt_iff] at hlt
    exact Nat.lt_irrefl _ hlt
  have hbuild : build (Archive.ofDocuments channel documents).source resolver options () =
      (.ok (ofDocuments resolver options history), ()) := by
    rw [build, hfetch]
    rfl
  refine ⟨history, ofDocuments resolver options history, hfetch, hbuild, hnodup, ?_, ?_,
    isIndexOf_ofDocuments hnodup, ?_⟩
  · exact fun document h => (Archive.mem_ofDocuments channel documents).mp (hmem document h)
  · exact fun document h => hcover document ((Archive.mem_ofDocuments channel documents).mpr h)
  · intro other hperm hids
    rw [← Archive.ofDocuments_eq_of_perm channel hperm hids]
    exact hbuild

/-- A document, a later one with a larger id, and one that was removed. -/
def sample : List Document :=
  [⟨"9", none, ⟨"1", none, "ada"⟩, ⟨100, 0⟩, none, "first", [.text "first"], []⟩,
    ⟨"10", none, ⟨"1", none, "ada"⟩, ⟨200, 0⟩, none, "second", [.text "second"], []⟩,
    ⟨"11", none, ⟨"1", none, "ada"⟩, ⟨300, 0⟩, none, "[deleted]", [], []⟩]

/-- The documents of `sample` come to one index in either direction, which has no post for the one
that was removed. -/
theorem build_archive_sample :
    (sample.map Document.id).Nodup ∧ sample.Perm sample.reverse ∧
      ∃ index, build (Archive.ofDocuments "news" sample).source Entities.empty.resolver ⟨.utc, []⟩ () =
          (.ok index, ()) ∧
        build (Archive.ofDocuments "news" sample.reverse).source Entities.empty.resolver
          ⟨.utc, []⟩ () = (.ok index, ()) ∧
        "11" ∉ index.posts.map Post.sourceId := by
  have hids : (sample.map Document.id).Nodup := by decide
  have hperm : sample.Perm sample.reverse := (List.reverse_perm sample).symm
  obtain ⟨history, index, -, hbuild, -, hmem, -, hindex, hother⟩ :=
    build_archive "news" sample Entities.empty.resolver ⟨.utc, []⟩
  refine ⟨hids, hperm, index, hbuild, hother sample.reverse hperm hids, fun h => ?_⟩
  obtain ⟨document, hdocument, hid, htombstone, -⟩ := (hindex.mem_iff "11").mp h
  have hremoved : ∀ document ∈ sample, document.id = "11" → document.isTombstone = true := by
    decide
  rw [hremoved document (hmem document hdocument) hid] at htombstone
  cases htombstone

end Index

end Gazette
