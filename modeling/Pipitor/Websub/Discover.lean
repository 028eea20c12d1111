import Pipitor.MediaDescription
import Pipitor.Router
import Pipitor.Websub.Delivery

/-!
# Discovery

`Service::discover` fetches a topic, puts the feed into the channel and gives the hubs that the document names.
The hubs are moved out of the document before it becomes a feed, and so are the namespaces of an RSS channel,
which the descriptions of its items need. `discovered_eq_iff` compares the feed with the one that the same
document becomes when a hub distributes it.
-/

namespace Pipitor

/-! ### Documents -/

/-- `atom_syndication::Feed`, with its links. -/
structure Atom.Document extends Atom.Feed where
  links : List Atom.Link

/-- The attributes of an extension element of a channel. -/
abbrev Rss.Attrs := List (String × String)

/-- `rss::Channel`, with its extensions. -/
structure Rss.Document extends Rss.Channel where
  extensions : List (String × List (String × List Rss.Attrs))

/-- `RawFeed`, with what `discover` takes out of it. -/
inductive Document
  | atom (feed : Atom.Document)
  | rss (channel : Rss.Document)

/-- The readers of `atom_syndication` and `rss`. -/
structure DocumentReaders where
  atom : List UInt8 → Option Atom.Document
  rss : List UInt8 → Option Rss.Document

/-- What they give to the rest of the program. -/
def DocumentReaders.readers (r : DocumentReaders) : Readers where
  atom content := (r.atom content).map (·.toFeed)
  rss content := (r.rss content).map (·.toChannel)

namespace Document

def parse (readers : DocumentReaders) (kind : MediaType) (content : List UInt8) : Option Document :=
  match kind with
  | .atom => (readers.atom content).map .atom
  | .rss => (readers.rss content).map .rss
  | .xml => (readers.atom content).map .atom <|> (readers.rss content).map .rss

def toRawFeed : Document → RawFeed
  | atom feed => .atom feed.toFeed
  | rss channel => .rss channel.toChannel

theorem parse_toRawFeed (readers : DocumentReaders) (kind : MediaType) (content : List UInt8) :
    (parse readers kind content).map toRawFeed = RawFeed.parse readers.readers kind content := by
  unfold parse RawFeed.parse DocumentReaders.readers
  dsimp only
  cases kind with
  | atom => cases readers.atom content <;> rfl
  | rss => cases readers.rss content <;> rfl
  | xml => cases readers.atom content <;> cases readers.rss content <;> rfl

theorem feed_parse (readers : DocumentReaders) (kind : MediaType) (content : List UInt8) :
    Feed.parse readers.readers kind content = (parse readers kind content).map fun d => d.toRawFeed.toFeed := by
  unfold Feed.parse
  rw [← parse_toRawFeed, Option.map_map]
  rfl

/-! ### Hubs -/

/-- The namespace of Atom. -/
def nsAtom : String := "http://www.w3.org/2005/Atom"

/-- The namespace that an element of a channel declares for its own name, or else that of the channel. -/
def isAtomElement (namespaces : Namespaces) (key : String) (attrs : Rss.Attrs) : Bool :=
  match attrs.find? fun a => Websub.stripPrefix a.1 "xmlns:" = some key with
  | some a => a.2 = nsAtom
  | none => (namespaces.find? (·.1 = key)).any (·.2 = nsAtom)

/-- `BTreeMap::get`. -/
def Attrs.get (attrs : Rss.Attrs) (name : String) : Option String := (attrs.find? (·.1 = name)).map (·.2)

/-- `rss_hub_links`. -/
def rssHubLinks (extensions : List (String × List (String × List Rss.Attrs))) (namespaces : Namespaces) :
    List String :=
  extensions.flatMap fun e =>
    ((((e.2.filter (·.1 = "link")).flatMap (·.2)).filter (isAtomElement namespaces e.1)).filter fun attrs =>
      Attrs.get attrs "rel" = some "hub").filterMap (Attrs.get · "href")

/-- The hubs that a document names. -/
def hubs : Document → List String
  | atom feed => (feed.links.filter (·.rel = "hub")).map (·.href)
  | rss channel => rssHubLinks channel.extensions channel.namespaces

/-- The feed that is left of the document when the hubs are taken out of it. -/
def rest : Document → Feed
  | atom feed => feed.toFeed.toFeed
  | rss channel => { channel.toChannel with namespaces := [] }.toFeed

end Document

/-! ### What is lost -/

/-- The search for a description of the entry finds one. -/
def MediaDescription.Described (extensions : Extensions) (namespaces : Namespaces) : Prop :=
  (∃ elms ∈ contentLists (elements extensions namespaces), Leads elms) ∨
    groupLevel extensions namespaces ≠ [] ∨ entryLevel extensions namespaces ≠ []

theorem MediaDescription.take_eq_none_iff (extensions : Extensions) (namespaces : Namespaces) :
    take extensions namespaces = none ↔ ¬Described extensions namespaces := by
  have hleads : (∃ elms ∈ contentLists (elements extensions namespaces), Leads elms) ↔
      ((contentLists (elements extensions namespaces)).findSome? takeContentDescription).isSome := by
    rw [List.findSome?_isSome_iff]
    exact exists_congr fun elms => and_congr_right fun _ => (isSome_takeContentDescription_iff elms).symm
  unfold Described
  rw [take_eq_fallback, hleads, not_or, not_or, not_not, not_not, ← fallback_eq_none_iff]
  cases (contentLists (elements extensions namespaces)).findSome? takeContentDescription with
  | none => simp
  | some v => simp

/-- Without namespaces no element is one of Media RSS. -/
theorem MediaDescription.take_nil (extensions : Extensions) : take extensions [] = none := by
  have hnone : elements extensions [] = [] := by
    have hfilter : (extensions.filter fun e => isMedia [] e.1) = [] :=
      List.filter_eq_nil_iff.mpr fun e _ => Bool.false_ne_true
    unfold elements
    rw [hfilter]
    rfl
  rw [take_eq, hnone]
  rfl

theorem Rss.Item.toEntry_nil (item : Rss.Item) (namespaces : Namespaces) :
    item.toEntry [] = { item.toEntry namespaces with summary := item.description } := by
  unfold toEntry
  rw [MediaDescription.take_nil]
  cases item.description <;> rfl

theorem Rss.Item.toEntry_nil_eq_iff (item : Rss.Item) (namespaces : Namespaces) :
    item.toEntry [] = item.toEntry namespaces ↔
      (item.description = none → ¬MediaDescription.Described item.extensions namespaces) := by
  rw [← MediaDescription.take_eq_none_iff, toEntry_nil item namespaces]
  unfold toEntry
  cases item.description with
  | none => simp [eq_comm]
  | some text => simp

/-- Two entries that differ in nothing but the summary. -/
def AlikeBut (e e' : FeedEntry) : Prop := e = { e' with summary := e.summary }

/-- The filters of the routes of a topic look at titles only. -/
def Router.TitlesOnly (r : Router) (topic : String) : Prop :=
  ∀ route ∈ (r.get (.feed topic)).getD [], ∀ f, route.filter = some f ∨ route.exclude = some f → f.text = none

theorem AlikeBut.routeEntry {e e' : FeedEntry} (h : AlikeBut e e') {r : Router} {topic : String}
    (hr : r.TitlesOnly topic) : r.routeEntry topic e.toEntry = r.routeEntry topic e'.toEntry := by
  have hmatches : ∀ f : Filter, f.text = none → f.matchesEntry e.toEntry = f.matchesEntry e'.toEntry := by
    intro f hf
    unfold Filter.matchesEntry
    rw [hf, h]
    rfl
  unfold Router.routeEntry
  congr 1
  refine List.filter_congr fun route hroute => ?_
  have htext := hr route hroute
  congr 1
  · cases hfilter : route.filter with
    | none => rfl
    | some f => exact hmatches f (htext f (.inl hfilter))
  · cases hexclude : route.exclude with
    | none => rfl
    | some f => exact congrArg not (hmatches f (htext f (.inr hexclude)))

namespace Document

/-- A channel lacks the descriptions of Media RSS once its namespaces are gone. -/
def Undescribed : Document → Prop
  | atom _ => True
  | rss channel => ∀ item ∈ channel.items, item.description = none →
      ¬MediaDescription.Described item.extensions channel.namespaces

theorem rest_eq_iff (d : Document) : d.rest = d.toRawFeed.toFeed ↔ d.Undescribed := by
  cases d with
  | atom feed => exact iff_of_true rfl trivial
  | rss channel =>
    unfold rest Undescribed toRawFeed RawFeed.toFeed Rss.Channel.toFeed
    simp only [Feed.mk.injEq, true_and, List.map_inj_left]
    exact forall₂_congr fun item _ => item.toEntry_nil_eq_iff channel.namespaces

theorem rest_alike (d : Document) : List.Forall₂ AlikeBut d.rest.entries d.toRawFeed.toFeed.entries := by
  cases d with
  | atom feed => exact List.forall₂_same.mpr fun e _ => rfl
  | rss channel =>
    unfold rest toRawFeed RawFeed.toFeed Rss.Channel.toFeed
    rw [List.forall₂_map_left_iff, List.forall₂_map_right_iff, List.forall₂_same]
    intro item _
    unfold AlikeBut
    rw [item.toEntry_nil channel.namespaces]

end Document

namespace Websub

/-- The `http::Response` to a request for a topic. An item of the body is a chunk or an error of the transport. -/
structure Page where
  headers : List (String × List UInt8)
  body : List (Except String (List UInt8))

namespace Page

variable (lib : CallLibraries) (readers : DocumentReaders) (page : Page)

/-- The media type. A page without the header is taken for XML. -/
def kind : Option MediaType :=
  match page.headers.find? (·.1 = "content-type") with
  | some (_, value) => (lib.toStr value).bind fun text => (lib.parseMime text).bind MediaType.ofMime
  | none => some .xml

/-- What the future of `Service::discover` reads of the response. -/
def document : Except String (Option Document) :=
  match page.kind lib with
  | none => .ok none
  | some kind => match page.body.mapM id with
    | .error e => .error e
    | .ok chunks => .ok (Document.parse readers kind chunks.flatten)

/-- What `Service::discover` puts into the channel. -/
def sent (topic : String) : List (String × Feed) :=
  match page.document lib readers with
  | .ok (some document) => [(topic, document.rest)]
  | _ => []

/-- What it returns: the hubs, if the page could be read. -/
def discovered : Except String (Option (List String)) :=
  match page.document lib readers with
  | .ok document => .ok (document.map (·.hubs))
  | .error e => .error e

/-- The whole body, if it ends without an error. -/
def content : Option (List UInt8) :=
  match page.body.mapM id with
  | .ok chunks => some chunks.flatten
  | .error _ => none

variable {lib readers page}

theorem document_eq_some_iff {d : Document} : page.document lib readers = .ok (some d) ↔
    ∃ kind content, page.kind lib = some kind ∧ page.content = some content ∧
      Document.parse readers kind content = some d := by
  unfold document content
  cases page.kind lib with
  | none => simp
  | some kind => cases page.body.mapM id <;> simp

theorem mem_sent {topic : String} {item : String × Feed} : item ∈ page.sent lib readers topic ↔
    ∃ d, page.document lib readers = .ok (some d) ∧ item = (topic, d.rest) := by
  unfold sent
  split
  · rename_i d h
    simp [h]
  · rename_i h
    refine ⟨(nomatch ·), ?_⟩
    rintro ⟨d, hd, -⟩
    exact (h d hd).elim

end Page

/-- **A document that is fetched and one that is distributed** become the same feed but for the summaries, and
the same feed exactly when no item of a channel lacks a description that Media RSS has. The entries are routed
alike where the filters look at titles only. -/
theorem discovered_eq_iff {svc : Service} {lib : CallLibraries} {hmac : List UInt8 → List UInt8 → List UInt8}
    {readers : DocumentReaders} (hmac_inc : Incremental lib.hmac hmac) (hreaders : lib.readers = readers.readers)
    {page : Page} {req : Request} {w : World} {now : UInt64} {topic : String} {feed feed' : Feed}
    (hquery : req.uri.query = none) (hkind : ∀ kind, IsMediaType lib req kind → page.kind lib = some kind)
    (hcontent : page.content = req.content) (hsent : (topic, feed) ∈ page.sent lib readers topic)
    (hdelivered : (topic, feed') ∈ svc.delivered lib req now w) :
    feed.title = feed'.title ∧ feed.id = feed'.id ∧
      List.Forall₂ (fun e e' => AlikeBut e e' ∧ ∀ r : Router, r.TitlesOnly topic →
        r.routeEntry topic e.toEntry = r.routeEntry topic e'.toEntry) feed.entries feed'.entries ∧
      (feed = feed' ↔ ∀ channel, page.document lib readers = .ok (some (.rss channel)) →
        ∀ item ∈ channel.items, item.description = none →
          ¬MediaDescription.Described item.extensions channel.namespaces) := by
  obtain ⟨d, hd, hitem⟩ := Page.mem_sent.mp hsent
  obtain ⟨-, rfl⟩ := Prod.mk.inj hitem
  obtain ⟨kind, content, hpage, hbody, hparse⟩ := Page.document_eq_some_iff.mp hd
  obtain ⟨id, task, -, ⟨kind', digits, signature, s, hkind', -, -, -, -, rfl⟩, hrun⟩ :=
    (mem_delivered hquery).mp hdelivered
  obtain ⟨content', feed'', hbody', -, hparse', hitem'⟩ := (run_eq_some hmac_inc).mp hrun
  obtain ⟨-, rfl⟩ := Prod.mk.inj hitem'
  obtain rfl := Option.some.inj ((hkind kind' hkind').symm.trans hpage)
  obtain rfl := Option.some.inj (hbody.symm.trans (hcontent.trans hbody'))
  rw [hreaders, Document.feed_parse, hparse] at hparse'
  obtain rfl := Option.some.inj hparse'
  refine ⟨?_, ?_, d.rest_alike.imp fun e e' h => ⟨h, fun r hr => h.routeEntry hr⟩, ?_⟩
  · cases d <;> rfl
  · cases d <;> rfl
  · rw [d.rest_eq_iff, hd]
    cases d with
    | atom feed => exact iff_of_true trivial fun channel h => (nomatch h)
    | rss channel =>
      constructor
      · rintro h _ ⟨⟩
        exact h
      · exact fun h => h channel rfl

/-! An item that only Media RSS describes. -/

def describedText : String :=
  "<rss xmlns:media=\"http://search.yahoo.com/mrss/\" version=\"2.0\"><channel><title>News</title>" ++
    "<link>https://example.com/</link><description/><item><link>https://example.com/1</link>" ++
    "<media:description>First</media:description></item></channel></rss>"

def describedItem : Rss.Item :=
  ⟨none, some "https://example.com/1", none, none, none,
    [("media", [("description", [.mk (some "First") []])])]⟩

def describedChannel : Rss.Document :=
  ⟨⟨"News", "https://example.com/", [describedItem], [("media", MediaDescription.nsMrss)]⟩, []⟩

def describedReaders : DocumentReaders :=
  ⟨fun _ => none, fun bytes => if bytes = asBytes describedText then some describedChannel else none⟩

/-- HMAC-SHA1, of the text with the secret `secret`. -/
def describedHmac (secret content : List UInt8) : List UInt8 :=
  if secret = asBytes "secret" ∧ content = asBytes describedText then
    [229, 9, 218, 54, 13, 73, 48, 122, 97, 153, 90, 181, 147, 222, 213, 224, 229, 69, 219, 212]
  else .replicate sha1Len 0

theorem length_describedHmac (secret content : List UInt8) : (describedHmac secret content).length = sha1Len := by
  unfold describedHmac
  split <;> rfl

def describedLibraries : CallLibraries :=
  { sampleCallLibraries with hmac := .ofOneShot describedHmac, readers := describedReaders.readers }

theorem incremental_described : Incremental describedLibraries.hmac describedHmac :=
  incremental_ofOneShot length_describedHmac

def describedPage : Page := ⟨[("content-type", asBytes "application/rss+xml")], [.ok (asBytes describedText)]⟩

def describedRequest : Request where
  uri := ⟨none, none, some "/callback/AQ"⟩
  headers := [("content-type", asBytes "application/rss+xml"),
    (hubSignature, asBytes "sha1=e509da360d49307a61995ab593ded5e0e545dbd4")]
  body := [.ok (asBytes describedText)]

theorem rss_described : describedReaders.rss (asBytes describedText) = some describedChannel := by
  unfold describedReaders
  dsimp only
  rw [if_pos rfl]

theorem document_described :
    describedPage.document describedLibraries describedReaders = .ok (some (.rss describedChannel)) := by
  have hkind : describedPage.kind describedLibraries = some .rss := by decide
  have hcontent : describedPage.content = some (asBytes describedText) := by
    unfold Page.content describedPage
    generalize asBytes describedText = bytes
    exact congrArg some (List.append_nil bytes)
  refine Page.document_eq_some_iff.mpr ⟨.rss, asBytes describedText, hkind, hcontent, ?_⟩
  unfold Document.parse
  dsimp only
  rw [rss_described]
  rfl

theorem mem_sent_described : ("https://example.com/topic", (Document.rss describedChannel).rest) ∈
    describedPage.sent describedLibraries describedReaders "https://example.com/topic" :=
  Page.mem_sent.mpr ⟨.rss describedChannel, document_described, rfl⟩

theorem mem_delivered_described : ("https://example.com/topic", describedChannel.toFeed) ∈
    sampleReceiver.delivered describedLibraries describedRequest 0 ⟨sampleSubscribed, .new none, []⟩ := by
  have hhex : HexSlice describedLibraries.hexDecode := hexSlice_sampleCallLibraries
  rw [mem_delivered (by decide), ← isUpdate_iff incremental_described hhex]
  refine ⟨⟨1, "https://example.com/hub", "https://example.com/topic", "secret"⟩, ?_⟩
  constructor
  · exact ⟨"AQ", 1, by decide, by decide, by decide, rfl⟩
  · decide
  · refine ⟨.rss, asBytes describedText, describedChannel.toFeed, ?_, ?_, ?_, ?_, ?_⟩
    · exact ⟨asBytes "application/rss+xml", "application/rss+xml", ⟨"application", "rss", some "xml"⟩,
        by decide, by decide, by decide, by decide⟩
    · unfold Request.content describedRequest
      generalize asBytes describedText = bytes
      exact congrArg some (List.append_nil bytes)
    · refine ⟨asBytes "e509da360d49307a61995ab593ded5e0e545dbd4", by decide, ?_⟩
      rw [← Hex.decode_eq_some_iff, describedHmac, if_pos ⟨rfl, rfl⟩]
      decide
    · show Feed.parse describedReaders.readers .rss (asBytes describedText) = _
      unfold Feed.parse RawFeed.parse DocumentReaders.readers
      dsimp only
      rw [rss_described]
      rfl
    · rfl

/-- The entry is fetched without the summary with which it is distributed. -/
theorem discovered_eq_iff_described : (Document.rss describedChannel).rest ≠ describedChannel.toFeed := by
  have hkind : ∀ kind, IsMediaType describedLibraries describedRequest kind →
      describedPage.kind describedLibraries = some kind := by
    intro kind h
    rw [← isMediaType_iff.mp h]
    decide
  obtain ⟨-, -, -, hiff⟩ := discovered_eq_iff incremental_described rfl (by decide) hkind
    rfl mem_sent_described mem_delivered_described
  intro heq
  refine hiff.mp heq describedChannel document_described describedItem (List.mem_singleton_self _) rfl ?_
  exact .inr (.inr (by decide))

end Websub

end Pipitor
