import Pipitor.Manifest

/-!
# Feeds

`feed.rs`: the media types of a feed, and the feed that the rest of the program sees, made from an Atom feed
or an RSS channel as the crates `atom_syndication` and `rss` read them. A `BTreeMap` is the list of its
entries in the order of their keys.
-/

namespace Pipitor

/-- `feed::Entry`. -/
structure FeedEntry extends Entry where
  id : Option String
  link : Option String
  updated : Option Int64
deriving DecidableEq, Repr

/-- `feed::Feed`. -/
structure Feed where
  title : String
  id : String
  entries : List FeedEntry
deriving DecidableEq, Repr

/-! ### Media types -/

inductive MediaType
  | atom
  | rss
  | xml
deriving DecidableEq, Repr

/-- `mime::Mime`, by the parts that are looked at, in lower case. -/
structure Mime where
  type : String
  subtype : String
  suffix : Option String
deriving DecidableEq, Repr

/-- `MediaType::from_str`, once `mime` has parsed the text. -/
def MediaType.ofMime (mime : Mime) : Option MediaType :=
  if mime.type = "application" ∧ mime.subtype = "atom" ∧ mime.suffix = some "xml" then some .atom
  else if mime.type = "application" ∧ (mime.subtype = "rss" ∨ mime.subtype = "rdf") ∧
      mime.suffix = some "xml" then some .rss
  else if (mime.type = "application" ∨ mime.type = "text") ∧ mime.subtype = "xml" then some .xml
  else none

/-! ### The descriptions of Media RSS -/

/-- `Extension` of `atom_syndication` and of `rss`. -/
inductive Extension
  | mk (value : Option String) (children : List (String × List Extension))

def Extension.value : Extension → Option String
  | mk value _ => value

def Extension.children : Extension → List (String × List Extension)
  | mk _ children => children

abbrev Extensions := List (String × List (String × List Extension))

abbrev Namespaces := List (String × String)

namespace MediaDescription

/-- The namespace of Media RSS. -/
def nsMrss : String := "http://search.yahoo.com/mrss/"

def takeDescription (elms : List Extension) : Option String := elms.findSome? (·.value)

/-- The first element with a `description` decides. -/
def takeContentDescription : List Extension → Option String
  | [] => none
  | elm :: elms => match elm.children.find? (·.1 = "description") with
    | some (_, descriptions) => takeDescription descriptions
    | none => takeContentDescription elms

/-- The descriptions found so far, of the entry and of a group in it. -/
structure Found where
  entry : Option String
  group : Option String
deriving DecidableEq, Repr

/-- A child of a `group`. The description of a `content` ends the search. -/
def visitGroupChild (found : Found) : String × List Extension → Except String Found
  | (name, elms) =>
    if name = "description" then .ok { found with group := found.group <|> takeDescription elms }
    else if name = "content" then match takeContentDescription elms with
      | some v => .error v
      | none => .ok found
    else .ok found

/-- A child of the entry that is in the namespace. -/
def visitChild (found : Found) : String × List Extension → Except String Found
  | (name, elms) =>
    if name = "description" then .ok { found with entry := found.entry <|> takeDescription elms }
    else if name = "content" then match takeContentDescription elms with
      | some v => .error v
      | none => .ok found
    else if name = "group" then elms.foldlM (fun found elm => elm.children.foldlM visitGroupChild found) found
    else .ok found

/-- The extensions under one prefix. -/
def visit (namespaces : Namespaces) (found : Found) :
    String × List (String × List Extension) → Except String Found
  | (key, map) =>
    if (namespaces.find? (·.1 = key)).any (·.2 = nsMrss) then map.foldlM visitChild found
    else .ok found

/-- `take_media_description_atom` and `take_media_description_rss`. -/
def take (extensions : Extensions) (namespaces : Namespaces) : Option String :=
  match extensions.foldlM (visit namespaces) ⟨none, none⟩ with
  | .error v => some v
  | .ok found => found.group <|> found.entry

end MediaDescription

/-! ### Atom and RSS -/

namespace Atom

structure Link where
  href : String
  rel : String
deriving DecidableEq, Repr

structure Entry where
  title : String
  id : String
  updated : Int64
  links : List Link
  summary : Option String
  content : Option (Option String)
  extensions : Extensions

structure Feed where
  title : String
  id : String
  entries : List Entry
  namespaces : Namespaces

/-- `Entry::from_atom`. -/
def Entry.toEntry (entry : Entry) (namespaces : Namespaces) : FeedEntry where
  title := some entry.title
  id := some entry.id
  link :=
    let link := entry.links.head?
    (if link.any (·.rel = "alternate") then link
      else entry.links.tail.find? (·.rel = "alternate") <|> link).map (·.href)
  summary := entry.summary <|> MediaDescription.take entry.extensions namespaces
  content := entry.content.join
  updated := some entry.updated

def Feed.toFeed (feed : Feed) : Pipitor.Feed where
  title := feed.title
  id := feed.id
  entries := feed.entries.map (·.toEntry feed.namespaces)

end Atom

namespace Rss

structure Guid where
  value : String
  isPermalink : Bool
deriving DecidableEq, Repr

structure Item where
  title : Option String
  link : Option String
  guid : Option Guid
  description : Option String
  content : Option String
  extensions : Extensions

structure Channel where
  title : String
  link : String
  items : List Item
  namespaces : Namespaces

/-- `Entry::from_rss`. -/
def Item.toEntry (item : Item) (namespaces : Namespaces) : FeedEntry where
  title := item.title
  id := item.guid.map (·.value)
  link := item.link <|> (item.guid.filter (·.isPermalink)).map (·.value)
  summary := item.description <|> MediaDescription.take item.extensions namespaces
  content := item.content
  updated := none

def Channel.toFeed (channel : Channel) : Feed where
  title := channel.title
  id := channel.link
  entries := channel.items.map (·.toEntry channel.namespaces)

end Rss

/-- The readers of `atom_syndication` and `rss`. -/
structure Readers where
  atom : List UInt8 → Option Atom.Feed
  rss : List UInt8 → Option Rss.Channel

/-- `RawFeed`. -/
inductive RawFeed
  | atom (feed : Atom.Feed)
  | rss (channel : Rss.Channel)

def RawFeed.parse (readers : Readers) (kind : MediaType) (content : List UInt8) : Option RawFeed :=
  match kind with
  | .atom => (readers.atom content).map .atom
  | .rss => (readers.rss content).map .rss
  | .xml => (readers.atom content).map .atom <|> (readers.rss content).map .rss

def RawFeed.toFeed : RawFeed → Feed
  | .atom feed => feed.toFeed
  | .rss channel => channel.toFeed

def Feed.parse (readers : Readers) (kind : MediaType) (content : List UInt8) : Option Feed :=
  (RawFeed.parse readers kind content).map (·.toFeed)

end Pipitor
