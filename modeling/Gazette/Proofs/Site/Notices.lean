import Gazette.Proofs.Site.Calm
import Gazette.Proofs.Site.Posts

/-!
# Notices of changes

A notice either changes nothing that shows and is answered with a fault, or gives the feed it is for
its next index. What it does to that feed, and what it is answered, does not depend on any other feed
(`exists_effect`), so that notices for two feeds may come in either order. Which of the two it is
depends on the tokens, the notice itself, the name and the export only (`answer_notice`).
-/

namespace Gazette

/-! ### Requests that are notices -/

/-- Whether a request is a notice for the feed that is named in a segment. -/
structure IsNotice (request : Request) (segment : List Char) : Prop where
  method : request.method = "POST"
  path : request.path = "/notify/".toList ++ segment
  slash : '/' ∉ segment
  nonempty : segment ≠ []

theorem IsNotice.route {request : Request} {segment : List Char} (h : IsNotice request segment) :
    Route.ofPath? request.path = some (.notify segment) := by
  have hpieces : List.splitOn '/' ("notify/".toList ++ segment) = ["notify".toList, segment] := by
    change List.splitOn '/' ("notify".toList ++ '/' :: segment) = _
    rw [List.splitOn_append_cons_self_of_not_mem (by decide), List.splitOn_eq_singleton h.slash]
  rw [h.path]
  change Route.ofPath? ('/' :: ("notify/".toList ++ segment)) = _
  rw [Route.ofPath?, hpieces]
  simp [Route.siteRoute?, h.nonempty]

/-- Whether a request comes with a header that names one of the tokens of a site. -/
def BearsToken (config : Config) (request : Request) : Prop :=
  ∃ value token, request.header? "authorization" = some value ∧
    Site.isHeaderText value = true ∧ value.toList = "Bearer ".toList ++ token ∧
    String.ofList (Text.trim token) ∈ config.tokens

/-- Whether a body is blank or says what was changed. -/
def IsWellFormed (body : List UInt8) : Prop :=
  body.all ChangeNotice.isBlank = true ∨ ∃ notice, ChangeNotice.decoder.ofBytes body = .ok notice

/-- Whether no documents can be read in a place. -/
def IsUnreadable (look : Look) : Prop :=
  ∀ content, look = .content content → ∃ detail, content.decode Export.decoder = .error detail

namespace Site

variable {site : Site} {directory : Directory} {request : Request} {segment : List Char}

/-- Why a notice fails. -/
inductive Fails (site : Site) (directory : Directory) (request : Request) (segment : List Char) : Prop
    where
  | disabled (h : site.config.tokens = [])
  | unauthorized (h : ¬ BearsToken site.config request)
  | malformed (h : ¬ IsWellFormed request.body)
  | unknown (h : ∀ name, Text.Percent.decode? segment = some name →
      site.feed? (String.ofList name) = none)
  | unreadable (h : ∀ name, Text.Percent.decode? segment = some name →
      IsUnreadable (directory (Config.exportName (String.ofList name))))

theorem token?_eq_some_iff {token : String} :
    token? request = some token ↔ ∃ value text, request.header? "authorization" = some value ∧
      isHeaderText value = true ∧ value.toList = "Bearer ".toList ++ text ∧
      String.ofList (Text.trim text) = token := by
  unfold token?
  cases request.header? "authorization" with
  | none => simp
  | some value =>
    dsimp only
    cases htext : isHeaderText value with
    | false => simp [htext]
    | true =>
      simp only [if_true, Option.map_eq_some_iff, Text.after?_eq_some_iff]
      simp [htext]

theorem authorize_eq_ok_iff :
    site.authorize request = .ok () ↔ site.config.tokens ≠ [] ∧ BearsToken site.config request := by
  have htoken : BearsToken site.config request ↔
      ∃ token, token? request = some token ∧ token ∈ site.config.tokens := by
    simp only [token?_eq_some_iff, BearsToken]
    constructor
    · rintro ⟨value, text, hvalue, htext, hstart, hmem⟩
      exact ⟨_, ⟨value, text, hvalue, htext, hstart, rfl⟩, hmem⟩
    · rintro ⟨token, ⟨value, text, hvalue, htext, hstart, rfl⟩, hmem⟩
      exact ⟨value, text, hvalue, htext, hstart, hmem⟩
  rw [htoken, authorize]
  by_cases htokens : site.config.tokens = []
  · simp [htokens]
  · have hsome : site.config.tokens.isEmpty = false := List.isEmpty_eq_false_iff.mpr htokens
    rw [hsome, if_neg Bool.false_ne_true]
    cases token? request with
    | none => simp
    | some token =>
      dsimp only
      split
      · next hmem => simp [htokens, hmem]
      · next hmem => simp [hmem]

theorem exists_read_eq_ok_iff {body : List UInt8} :
    (∃ notice, ChangeNotice.read body = .ok notice) ↔ IsWellFormed body := by
  unfold ChangeNotice.read IsWellFormed
  split
  · next hblank => simp [hblank]
  · next hblank =>
    cases ChangeNotice.decoder.ofBytes body <;> simp [hblank, Except.mapError]

theorem exists_read_eq_error_iff {name : String} :
    (∃ fault, site.read directory name = .error fault) ↔
      IsUnreadable (directory (Config.exportName name)) := by
  unfold read IsUnreadable
  cases directory (Config.exportName name) with
  | endless => simp
  | content content =>
    simp only [Export.load, Look.content.injEq, forall_eq']
    cases content.decode Export.decoder <;> simp

/-! ### Effects -/

/-- What is done to a site: nothing, or a feed takes the place of the one of its name, and then pages
are forgotten if it has another index. -/
inductive Effect where
  | nothing
  | calms (feed : Feed)
  | renews (feed : Feed)

namespace Effect

def feed? : Effect → Option Feed
  | nothing => none
  | calms feed | renews feed => some feed

def on : Effect → Site → Site
  | nothing, site => site
  | calms feed, site => site.putFeed feed
  | renews feed, site => (site.putFeed feed).forgetPages

theorem config_on (effect : Effect) (site : Site) : (effect.on site).config = site.config := by
  cases effect <;> rfl

theorem entities_on (effect : Effect) (site : Site) : (effect.on site).entities = site.entities := by
  cases effect <;> rfl

theorem feed?_on {effect : Effect} {name : String}
    (h : ∀ feed, effect.feed? = some feed → feed.name ≠ name) (site : Site) :
    (effect.on site).feed? name = site.feed? name := by
  cases effect with
  | nothing => rfl
  | calms feed => exact (feed?_putFeed site feed name).trans (if_neg (h feed rfl))
  | renews feed => exact (feed?_putFeed site feed name).trans (if_neg (h feed rfl))

theorem putFeed_comm {a b : Feed} (h : a.name ≠ b.name) (site : Site) :
    (site.putFeed a).putFeed b = (site.putFeed b).putFeed a := by
  unfold putFeed
  simp only [List.map_map]
  congr 1
  refine List.map_congr_left fun other _ => ?_
  by_cases ha : other.name = a.name
  · have hb : other.name ≠ b.name := fun hb => h (ha.symm.trans hb)
    simp [ha, h]
  · by_cases hb : other.name = b.name
    · simp [hb, Ne.symm h]
    · simp [ha, hb]

theorem on_comm {first second : Effect}
    (h : ∀ a b, first.feed? = some a → second.feed? = some b → a.name ≠ b.name) (site : Site) :
    first.on (second.on site) = second.on (first.on site) := by
  have hput : ∀ a b, first.feed? = some a → second.feed? = some b →
      (site.putFeed a).putFeed b = (site.putFeed b).putFeed a := fun a b ha hb =>
    putFeed_comm (h a b ha hb) site
  cases first with
  | nothing => rfl
  | calms a =>
    cases second with
    | nothing => rfl
    | calms b => exact (hput a b rfl rfl).symm
    | renews b => exact congrArg forgetPages (hput a b rfl rfl).symm
  | renews a =>
    cases second with
    | nothing => rfl
    | calms b => exact congrArg forgetPages (hput a b rfl rfl).symm
    | renews b =>
      change ((site.putFeed b).putFeed a).forgetPages = ((site.putFeed a).putFeed b).forgetPages
      rw [hput a b rfl rfl]

end Effect

/-- What a notice comes to: it is refused, or its feed cannot be read, or has its next index. -/
inductive Outcome (site : Site) (directory : Directory) (request : Request) (segment : List Char) :
    Effect → Response → Prop where
  | refused {response : Response}
    (hfails : Fails site directory request segment ∨ Request.bodyLimit < request.body.length)
    (hstatus : 400 ≤ response.status) : Outcome site directory request segment .nothing response
  | failed {name : List Char} {feed : Feed} {response : Response}
    (hname : Text.Percent.decode? segment = some name)
    (hfeed : site.feed? (String.ofList name) = some feed)
    (hfails : Fails site directory request segment) (hstatus : 400 ≤ response.status) :
    Outcome site directory request segment (.calms feed.calm) response
  | renewed {name : List Char} {feed : Feed} {archive : Archive} {response : Response}
    (hname : Text.Percent.decode? segment = some name)
    (hfeed : site.feed? (String.ofList name) = some feed)
    (hread : site.read directory feed.name = .ok archive)
    (hsucceeds : ¬ Fails site directory request segment)
    (hbody : request.body.length ≤ Request.bodyLimit) (hstatus : response.status = 200) :
    Outcome site directory request segment
      (.renews (feed.renewed archive (site.indexOf archive))) response

/-- Whether a site does not differ from another one in what is asked of it for a notice. -/
structure Agrees (site other : Site) (segment : List Char) : Prop where
  config : other.config = site.config
  entities : other.entities = site.entities
  feed : ∀ name, Text.Percent.decode? segment = some name →
    other.feed? (String.ofList name) = site.feed? (String.ofList name)

theorem answer_notice_eq (h : IsNotice request segment) (site : Site) (directory : Directory) :
    site.answer directory request =
      match site.authorize request with
      | .error fault => (site, fault.response)
      | .ok _ =>
        match Text.Percent.decode? segment with
        | none => (site, undecodable "feed")
        | some name =>
          if Request.bodyLimit < request.body.length then (site, tooLong)
          else site.answerNotice directory (String.ofList name) request.body := by
  have hhead : request.method ≠ "HEAD" := by
    rw [h.method]
    decide
  have hallows : (Route.notify segment).allows request.method = true := by
    rw [h.method]
    rfl
  rw [answer, h.route]
  dsimp only
  rw [if_neg hhead]
  unfold answerAuthorized
  cases site.authorize request with
  | error fault =>
    dsimp only
    rw [if_pos hallows]
  | ok =>
    unfold answerRoute
    rw [hallows]
    rfl

theorem read_congr {site other : Site} (hconfig : other.config = site.config) (directory : Directory)
    (name : String) : other.read directory name = site.read directory name := by
  rw [read, read, hconfig]

theorem indexOf_congr {site other : Site} (hagrees : Agrees site other segment) (archive : Archive) :
    other.indexOf archive = site.indexOf archive := by
  rw [indexOf, indexOf, hagrees.config, hagrees.entities]

section Authorized

variable (hidle : ∀ name feed, site.feed? name = some feed → feed.slot.running = false)
  {name : List Char} (hname : Text.Percent.decode? segment = some name)
  (hauthorized : site.config.tokens ≠ [] ∧ BearsToken site.config request)
  (hbody : request.body.length ≤ Request.bodyLimit)

include hidle hname hauthorized hbody

theorem exists_effect_of_feed {feed : Feed} (hfeed : site.feed? (String.ofList name) = some feed)
    {notice : ChangeNotice} (hread : ChangeNotice.read request.body = .ok notice)
    (directory : Directory) :
    ∃ effect response, Outcome site directory request segment effect response ∧
      ∀ other, Agrees site other segment →
        other.answerNotice directory (String.ofList name) request.body =
          (effect.on other, response) := by
  have hfeedName := name_of_feed? hfeed
  have hnamed : ∀ text, Text.Percent.decode? segment = some text →
      String.ofList text = feed.name := by
    intro text htext
    rw [hfeedName, Option.some.inj (hname.symm.trans htext)]
  have hanswer : ∀ other, Agrees site other segment →
      other.answerNotice directory (String.ofList name) request.body =
        ((other.rebuild directory feed).1, noticeReply (other.rebuild directory feed).1 feed
          (other.rebuild directory feed).2) := fun other hagrees =>
    answerNotice_eq ((hagrees.feed name hname).trans hfeed) hread directory
  -- No call is running, so this one walks the archive itself and is answered when it is done.
  cases harchive : site.read directory feed.name with
  | error fault =>
    refine ⟨.calms feed.calm, (SiteFault.ofHistory fault).response,
      .failed hname hfeed (.unreadable ?_) (le_status_fault _), fun other hagrees => ?_⟩
    · intro text htext
      rw [hnamed text htext]
      exact exists_read_eq_error_iff.mp ⟨fault, harchive⟩
    · rw [hanswer other hagrees, rebuild_of_idle (hidle _ _ hfeed), read_congr hagrees.config,
        harchive]
      rfl
  | ok archive =>
    let next := feed.renewed archive (site.indexOf archive)
    have hsucceeds : ¬ Fails site directory request segment := by
      rintro (hdisabled | hunauthorized | hmalformed | hunknown | hunreadable)
      · exact hauthorized.1 hdisabled
      · exact hunauthorized hauthorized.2
      · exact hmalformed (exists_read_eq_ok_iff.mp ⟨notice, hread⟩)
      · rw [hunknown name hname] at hfeed
        cases hfeed
      · obtain ⟨fault, herror⟩ := exists_read_eq_error_iff.mpr (hunreadable name hname)
        rw [← hfeedName, harchive] at herror
        cases herror
    refine ⟨.renews next, .json (receipt next (.rebuilt (feed.slot.version + 1))).text,
      .renewed hname hfeed harchive hsucceeds hbody rfl, fun other hagrees => ?_⟩
    have hlater : (other.putFeed next).forgetPages.feed? feed.name = some next := by
      have hother := (hagrees.feed name hname).trans hfeed
      rw [← hfeedName] at hother
      refine (feed?_putFeed other next feed.name).trans ?_
      rw [hother]
      exact if_pos rfl
    rw [hanswer other hagrees, rebuild_of_idle (hidle _ _ hfeed), read_congr hagrees.config,
      harchive]
    dsimp only [noticeReply]
    rw [indexOf_congr hagrees, hlater]
    rfl

theorem exists_effect_of_name (directory : Directory) :
    ∃ effect response, Outcome site directory request segment effect response ∧
      ∀ other, Agrees site other segment →
        other.answerNotice directory (String.ofList name) request.body =
          (effect.on other, response) := by
  cases hread : ChangeNotice.read request.body with
  | error detail =>
    refine ⟨.nothing, (SiteFault.badRequest ("invalid notification: " ++ detail)).response,
      .refused (.inl (.malformed fun hwell => ?_)) (le_status_fault _), fun other hagrees => ?_⟩
    · obtain ⟨notice, hok⟩ := exists_read_eq_ok_iff.mpr hwell
      rw [hread] at hok
      cases hok
    · rw [answerNotice, hread]
      rfl
  | ok notice =>
    cases hfeed : site.feed? (String.ofList name) with
    | none =>
      refine ⟨.nothing, (SiteFault.notFound ("feed " ++ String.ofList name)).response,
        .refused (.inl (.unknown ?_)) (le_status_fault _), fun other hagrees => ?_⟩
      · intro text htext
        rwa [← Option.some.inj (hname.symm.trans htext)]
      · rw [answerNotice, hread, hagrees.feed name hname, hfeed]
        rfl
    | some feed =>
      exact exists_effect_of_feed hidle hname hauthorized hbody hfeed hread directory

end Authorized

/-- A notice has one outcome and one answer on all sites that agree with this one. -/
theorem exists_effect
    (hidle : ∀ name feed, site.feed? name = some feed → feed.slot.running = false)
    (h : IsNotice request segment) (directory : Directory) :
    ∃ effect response, Outcome site directory request segment effect response ∧
      ∀ other, Agrees site other segment →
        other.answer directory request = (effect.on other, response) := by
  have hauthorize : ∀ other, Agrees site other segment →
      other.authorize request = site.authorize request := by
    intro other hagrees
    rw [authorize, authorize, hagrees.config]
  cases hauth : site.authorize request with
  | error fault =>
    refine ⟨.nothing, fault.response, .refused (.inl ?_) (le_status_fault fault), ?_⟩
    · by_cases htokens : site.config.tokens = []
      · exact .disabled htokens
      · refine .unauthorized fun hbears => ?_
        rw [authorize_eq_ok_iff.mpr ⟨htokens, hbears⟩] at hauth
        cases hauth
    · intro other hagrees
      rw [answer_notice_eq h, hauthorize other hagrees, hauth]
      rfl
  | ok =>
    have hanswer : ∀ other, Agrees site other segment → other.answer directory request =
        match Text.Percent.decode? segment with
        | none => (other, undecodable "feed")
        | some name =>
          if Request.bodyLimit < request.body.length then (other, tooLong)
          else other.answerNotice directory (String.ofList name) request.body := by
      intro other hagrees
      rw [answer_notice_eq h, hauthorize other hagrees, hauth]
    cases hname : Text.Percent.decode? segment with
    | none =>
      refine ⟨.nothing, undecodable "feed", .refused (.inl (.unknown ?_)) (Nat.le_refl 400), ?_⟩
      · intro name hsome
        rw [hname] at hsome
        cases hsome
      · intro other hagrees
        rw [hanswer other hagrees, hname]
        rfl
    | some name =>
      by_cases hlong : Request.bodyLimit < request.body.length
      · refine ⟨.nothing, tooLong, .refused (.inr hlong) (by decide), fun other hagrees => ?_⟩
        rw [hanswer other hagrees, hname]
        exact if_pos hlong
      · obtain ⟨effect, response, houtcome, hnotice⟩ :=
          exists_effect_of_name hidle hname (authorize_eq_ok_iff.mp hauth) (Nat.le_of_not_lt hlong)
            directory
        refine ⟨effect, response, houtcome, fun other hagrees => ?_⟩
        rw [hanswer other hagrees, hname]
        exact (if_neg hlong).trans (hnotice other hagrees)

namespace Outcome

variable {effect : Effect} {response : Response}

theorem name_of_feed? (h : Outcome site directory request segment effect response) {feed : Feed}
    (hfeed : effect.feed? = some feed) : ∃ name, Text.Percent.decode? segment = some name ∧
      feed.name = String.ofList name := by
  cases h with
  | refused => cases hfeed
  | @failed name found _ hname hfound =>
    cases hfeed
    exact ⟨name, hname, found.name_calm.trans (Site.name_of_feed? hfound)⟩
  | @renewed name found _ _ hname hfound =>
    cases hfeed
    have hfoundName : found.name = String.ofList name := Site.name_of_feed? hfound
    exact ⟨name, hname, hfoundName⟩

theorem feed?_on (h : Outcome site directory request segment effect response) {name : List Char}
    (hname : Text.Percent.decode? segment ≠ some name) (other : Site) :
    (effect.on other).feed? (String.ofList name) = other.feed? (String.ofList name) := by
  refine Effect.feed?_on (fun feed hfeed hsame => ?_) other
  obtain ⟨text, htext, hnamed⟩ := h.name_of_feed? hfeed
  rw [hnamed] at hsame
  exact hname (htext.trans (congrArg some (String.ofList_injective hsame)))

theorem agrees (h : Outcome site directory request segment effect response) {segment' : List Char}
    (hother : ∀ name, Text.Percent.decode? segment = some name →
      Text.Percent.decode? segment' ≠ some name) : Agrees site (effect.on site) segment' where
  config := effect.config_on site
  entities := effect.entities_on site
  feed _ hname := h.feed?_on (fun hsame => hother _ hsame hname) site

/-- A notice that fails is answered with a fault, and changes nothing but a mark. -/
theorem of_fails (h : Outcome site directory request segment effect response)
    (hfails : Fails site directory request segment) (hnames : (site.feeds.map Feed.name).Nodup) :
    400 ≤ response.status ∧ (effect.on site).calm = site.calm := by
  cases h with
  | refused _ hstatus => exact ⟨hstatus, rfl⟩
  | failed _ hfeed _ hstatus =>
    refine ⟨hstatus, calm_putFeed_of_feed? hnames ?_⟩
    rwa [Site.name_of_feed? hfeed]
  | renewed _ _ _ hsucceeds => exact absurd hfails hsucceeds

theorem status_eq_iff (h : Outcome site directory request segment effect response) :
    response.status = 200 ↔ ¬ Fails site directory request segment ∧
      request.body.length ≤ Request.bodyLimit := by
  cases h with
  | refused hfails hstatus =>
    refine ⟨fun heq => ?_, fun ⟨hsucceeds, hbody⟩ => ?_⟩
    · omega
    · rcases hfails with hfails | hlong
      · exact absurd hfails hsucceeds
      · omega
  | failed _ _ hfails hstatus => exact ⟨fun heq => by omega, fun ⟨hsucceeds, _⟩ => absurd hfails hsucceeds⟩
  | renewed _ _ _ hsucceeds hbody hstatus => exact ⟨fun _ => ⟨hsucceeds, hbody⟩, fun _ => hstatus⟩

end Outcome

theorem index_feed?_of_calm_eq {site later : Site} (h : later.calm = site.calm) (name : String) :
    (later.feed? name).map (fun feed => feed.slot.index) =
      (site.feed? name).map fun feed => feed.slot.index := by
  have hindex : ∀ site : Site, (site.calm.feed? name).map (fun feed => feed.slot.index) =
      (site.feed? name).map fun feed => feed.slot.index := by
    intro site
    rw [feed?_calm]
    cases site.feed? name <;> simp
  rw [← hindex, h, hindex]

/-- A notice that comes while no call is running is answered with 200 unless it fails or is too long.
If it fails, it is answered with a fault, no feed has another index, and nothing that is answered
later is any different. In any case it changes no feed but the one it names, and with a notice for
another feed it comes to the same, in both answers and in the state that is left, whichever of them
is the first. -/
theorem answer_notice (h : Reached site)
    (hidle : ∀ name feed, site.feed? name = some feed → feed.slot.running = false)
    (directory : Directory) (hnotice : IsNotice request segment) :
    (Fails site directory request segment →
      400 ≤ (site.answer directory request).2.status ∧
      (∀ name, ((site.answer directory request).1.feed? name).map (fun feed => feed.slot.index) =
        (site.feed? name).map fun feed => feed.slot.index) ∧
      ∀ later events, (site.answer directory request).1.responses later events =
        site.responses later events) ∧
    ((site.answer directory request).2.status = 200 ↔
      ¬ Fails site directory request segment ∧ request.body.length ≤ Request.bodyLimit) ∧
    (∀ name, Text.Percent.decode? segment ≠ some name →
      (site.answer directory request).1.feed? (String.ofList name) =
        site.feed? (String.ofList name)) ∧
    ∀ (directory' : Directory) (request' : Request) (segment' : List Char),
      IsNotice request' segment' →
      (∀ name, Text.Percent.decode? segment = some name →
        Text.Percent.decode? segment' ≠ some name) →
      ((site.answer directory request).1.answer directory' request').2 =
          (site.answer directory' request').2 ∧
        ((site.answer directory' request').1.answer directory request).2 =
          (site.answer directory request).2 ∧
        ((site.answer directory request).1.answer directory' request').1 =
          ((site.answer directory' request').1.answer directory request).1 := by
  have hagrees : Agrees site site segment := ⟨rfl, rfl, fun _ _ => rfl⟩
  obtain ⟨effect, response, houtcome, heffect⟩ := exists_effect hidle hnotice directory
  rw [heffect site hagrees]
  dsimp only
  refine ⟨fun hfails => ?_, houtcome.status_eq_iff, fun name hname => ?_, ?_⟩
  · obtain ⟨hstatus, hcalm⟩ := houtcome.of_fails hfails h.nodup_names
    exact ⟨hstatus, index_feed?_of_calm_eq hcalm, responses_eq_of_calm_eq hcalm⟩
  · exact houtcome.feed?_on hname site
  · intro directory' request' segment' hnotice' hother
    obtain ⟨effect', response', houtcome', heffect'⟩ := exists_effect hidle hnotice' directory'
    have hnames : ∀ a b, effect.feed? = some a → effect'.feed? = some b → a.name ≠ b.name := by
      intro a b ha hb hsame
      obtain ⟨text, htext, hnamed⟩ := houtcome.name_of_feed? ha
      obtain ⟨text', htext', hnamed'⟩ := houtcome'.name_of_feed? hb
      rw [hnamed, hnamed'] at hsame
      rw [String.ofList_injective hsame] at htext
      exact hother text' htext htext'
    have hfirst : Agrees site (effect.on site) segment' := houtcome.agrees hother
    have hsecond : Agrees site (effect'.on site) segment :=
      houtcome'.agrees fun name hname' hname => hother name hname hname'
    rw [heffect' site ⟨rfl, rfl, fun _ _ => rfl⟩]
    dsimp only
    rw [heffect' _ hfirst, heffect _ hsecond]
    exact ⟨rfl, rfl, (Effect.on_comm hnames site).symm⟩

/-- A notice that says nothing and one that cannot be read, for the two feeds of a site. -/
theorem answer_notice_sample :
    ∃ site directory news devLog, Reached site ∧
      (∀ name feed, site.feed? name = some feed → feed.slot.running = false) ∧
      IsNotice news "news".toList ∧ IsNotice devLog "dev-log_2".toList ∧
      ¬ Fails site directory news "news".toList ∧ (site.answer directory news).2.status = 200 ∧
      Fails site directory devLog "dev-log_2".toList ∧
      400 ≤ (site.answer directory devLog).2.status ∧
      ((site.answer directory news).1.answer directory devLog).1 =
        ((site.answer directory devLog).1.answer directory news).1 := by
  let site := Site.new sampleConfig .empty
  let directory : Directory := fun _ => .content sampleExport
  let headers := [("authorization", "Bearer secret")]
  let news : Request := ⟨"POST", "/notify/news", headers, []⟩
  let devLog : Request := ⟨"POST", "/notify/dev-log_2", headers, "x".toUTF8.toList⟩
  have hidle : ∀ name feed, site.feed? name = some feed → feed.slot.running = false := by
    intro name feed hfeed
    obtain ⟨given, -, rfl⟩ := List.mem_map.mp (List.mem_of_find?_eq_some hfeed)
    rfl
  have hnews : IsNotice news "news".toList := ⟨rfl, by decide, by decide, by decide⟩
  have hdevLog : IsNotice devLog "dev-log_2".toList := ⟨rfl, by decide, by decide, by decide⟩
  have hbears : BearsToken sampleConfig news :=
    ⟨"Bearer secret", "secret".toList, by decide +kernel, by decide +kernel, by decide, by decide⟩
  have hsucceeds : ¬ Fails site directory news "news".toList := by
    rintro (hdisabled | hunauthorized | hmalformed | hunknown | hunreadable)
    · cases hdisabled
    · exact hunauthorized hbears
    · exact hmalformed (.inl rfl)
    · cases hunknown "news".toList (by decide)
    · obtain ⟨detail, herror⟩ := hunreadable "news".toList (by decide) sampleExport rfl
      have hdecode : (sampleExport.decode Export.decoder).toOption.isSome = true := by decide +kernel
      rw [herror] at hdecode
      cases hdecode
  have hfails : Fails site directory devLog "dev-log_2".toList := by
    refine .malformed ?_
    rintro (hblank | ⟨notice, hnotice⟩)
    · revert hblank
      decide +kernel
    · have herror : (ChangeNotice.decoder.ofBytes devLog.body).toOption = none := by decide +kernel
      rw [hnotice] at herror
      cases herror
  obtain ⟨-, hstatus, -, hcommute⟩ := answer_notice reached_sample hidle directory hnews
  obtain ⟨hfailed, -⟩ := answer_notice reached_sample hidle directory hdevLog
  obtain ⟨-, -, hstate⟩ := hcommute directory devLog "dev-log_2".toList hdevLog (by decide)
  exact ⟨site, directory, news, devLog, reached_sample, hidle, hnews, hdevLog, hsucceeds,
    hstatus.mpr ⟨hsucceeds, Nat.zero_le _⟩, hfails, (hfailed hfails).1, hstate⟩

end Site

end Gazette
