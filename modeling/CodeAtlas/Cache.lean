import CodeAtlas.Document
import CodeAtlas.Error
import CodeAtlas.Files.Access

/-! # The cache of documents

Documents are kept under the project and path of their file.  One is given again only for the same
content and language, and while it is not too old.  When all of them together take too much room,
those used longest ago go first; the one just stored stays.

A document that has to be read is stored in two steps, first taking a ticket and then presenting
it: a project that was invalidated or retired in between gets nothing stored. -/

namespace CodeAtlas

namespace Cache

structure Key where
  project : String
  path : Place
deriving DecidableEq, Repr

/-- The key of a way within a project, however it is spelled. -/
def Key.of (project : String) (path : Place) : Key :=
  ⟨project, path.tidy⟩

structure Slot where
  document : Document
  /-- The tick of the last use. -/
  lastAccess : Nat
  /-- When the document was read. -/
  parsedAt : Nat

structure Settings where
  enabled : Bool := true
  maxBytes : Nat := 100 * 1024 * 1024
  /-- The seconds after which a document is too old; without it none ever is. -/
  ttl : Option Nat := some 300
deriving DecidableEq, Repr

def Settings.ofConfig (config : Config) : Settings where
  enabled := config.cache.enabled
  maxBytes := config.cacheMaxBytes
  ttl := config.cacheTtl

/-- Times are counted in billionths of a second. -/
def second : Nat := 1000000000

/-- Whether something read at one time is too old at another. -/
def Settings.expired (settings : Settings) (now parsedAt : Nat) : Bool :=
  match settings.ttl with
  | some ttl => now - parsedAt > ttl * second
  | none => false

/-- What has been counted since the start. -/
structure Counts where
  hits : Nat := 0
  misses : Nat := 0
  evictions : Nat := 0
  invalidations : Nat := 0
  parses : Nat := 0
deriving DecidableEq, Repr

/-- The right to store what is being read for a key. -/
structure Ticket where
  key : Key
  generation : Nat
deriving DecidableEq, Repr

end Cache

structure Cache where
  settings : Cache.Settings
  /-- The documents kept, each under its own key. -/
  slots : List (Cache.Key × Cache.Slot) := []
  /-- The keys that something is being read for. -/
  pending : List Cache.Key := []
  /-- How often each project was invalidated or activated. -/
  generations : List (String × Nat) := []
  /-- The projects that nothing is stored for. -/
  retired : List String := []
  /-- The room that the documents take together. -/
  footprint : Nat := 0
  tick : Nat := 0
  counts : Cache.Counts := {}

namespace Cache

def new (settings : Settings) : Cache := { settings }

/-! ## Looking -/

def find? (c : Cache) (key : Key) : Option Slot :=
  c.slots.lookup key

def contains (c : Cache) (key : Key) : Bool :=
  (c.find? key).isSome

def size (c : Cache) : Nat := c.slots.length

def projectSize (c : Cache) (project : String) : Nat :=
  (c.slots.filter fun (key, _) => key.project = project).length

def generation (c : Cache) (project : String) : Nat :=
  (c.generations.lookup project).getD 0

/-! ## Dropping -/

/-- The room that some slots take together. -/
def room (slots : List (Key × Slot)) : Nat :=
  slots.foldr (fun e n => e.2.document.footprint + n) 0

/-- Drop the slots that a condition picks out, and tell how many there were. -/
def dropWhere (c : Cache) (p : Key → Slot → Bool) : Nat × Cache :=
  let dropped := c.slots.filter fun (key, slot) => p key slot
  (dropped.length, {
    c with
    slots := c.slots.filter fun (key, slot) => !p key slot
    footprint := c.footprint - room dropped })

def countEvictions (c : Cache) (n : Nat) : Cache :=
  { c with counts.evictions := c.counts.evictions + n }

def countInvalidations (c : Cache) (n : Nat) : Cache :=
  { c with counts.invalidations := c.counts.invalidations + n }

/-- The slot that was used longest ago, the one to be kept left aside. -/
def oldest? (keep : Key) : List (Key × Slot) → Option (Key × Slot)
  | [] => none
  | (key, slot) :: rest =>
    if key = keep then oldest? keep rest
    else
      match oldest? keep rest with
      | some (other, slot') =>
        if slot'.lastAccess < slot.lastAccess then some (other, slot') else some (key, slot)
      | none => some (key, slot)

/-- Drop one slot after the other, those used longest ago first, until the rest fits or only the
slot to be kept is left.  No more slots can be dropped than there are. -/
def shrink (keep : Key) : Nat → Cache → Cache
  | 0, c => c
  | fuel + 1, c =>
    if c.footprint ≤ c.settings.maxBytes then c
    else
      match oldest? keep c.slots with
      | some (key, _) =>
        let (n, c) := c.dropWhere fun k _ => k = key
        shrink keep fuel (c.countEvictions n)
      | none => c

/-- Drop what is too old, the slot to be kept left aside. -/
def expire (c : Cache) (now : Nat) (keep : Key) : Cache :=
  let (n, c) := c.dropWhere fun key slot => key ≠ keep && c.settings.expired now slot.parsedAt
  c.countEvictions n

def evict (c : Cache) (now : Nat) (keep : Key) : Cache :=
  (shrink keep c.slots.length c).expire now keep

/-! ## Storing -/

/-- Take the ticket for a key. -/
def takeTicket (c : Cache) (key : Key) : Ticket × Cache :=
  (⟨key, c.generation key.project⟩,
    { c with pending := if c.pending.contains key then c.pending else key :: c.pending })

/-- Give a ticket back without storing anything. -/
def release (c : Cache) (t : Ticket) : Cache :=
  { c with pending := c.pending.filter fun key => key ≠ t.key }

/-- Store a document in the place of what its key had before. -/
def put (c : Cache) (now : Nat) (key : Key) (d : Document) : Cache :=
  let (_, c) := c.dropWhere fun k _ => k = key
  let tick := c.tick + 1
  { c with
    slots := (key, ⟨d, tick, now⟩) :: c.slots
    footprint := c.footprint + d.footprint
    tick := tick }

/-- Store a document by the right of a ticket, and make room for it. -/
def present (c : Cache) (now : Nat) (t : Ticket) (d : Document) : Cache :=
  let c := c.release t
  if c.retired.contains t.key.project || c.generation t.key.project ≠ t.generation then c
  else (c.put now t.key d).evict now t.key

/-! ## Getting -/

/-- Whether a slot answers a request. -/
def Slot.answers (slot : Slot) (settings : Settings) (now : Nat) (fingerprint : Fingerprint)
    (language : Language) : Bool :=
  slot.document.fingerprint = fingerprint && slot.document.language = language &&
    !settings.expired now slot.parsedAt

def touch (c : Cache) (key : Key) : Cache :=
  { c with slots := c.slots.map fun (k, slot) =>
      if k = key then (k, { slot with lastAccess := c.tick }) else (k, slot) }

/-- Look for a document, which counts as a use of it. -/
def lookup (c : Cache) (now : Nat) (key : Key) (fingerprint : Fingerprint)
    (language : Language) : Option Document × Cache :=
  let c := { c with tick := c.tick + 1 }
  match c.find? key with
  | some slot =>
    if slot.answers c.settings now fingerprint language then
      (some slot.document, { c.touch key with counts.hits := c.counts.hits + 1 })
    else (none, c)
  | none => (none, c)

/-- What stands for a source that cannot be read. -/
def noTree (file : FileRef) : Error :=
  .parseFailure file.relative.relative "parser produced no tree"

/-- The document that a parser makes of a source. -/
def read (parser : Syntax.Parser Language) (file : FileRef) (source : List UInt8)
    (language : Language) : Except Error Document :=
  match parser language source with
  | none => .error (noTree file)
  | some tree => .ok {
      project := file.project
      path := file.relative
      fingerprint := .of file.modified source
      language, source, tree }

def countParse (c : Cache) : Cache :=
  { c with counts.parses := c.counts.parses + 1 }

/-- Read a document by the right of a ticket and store it. -/
def readWith (c : Cache) (parser : Syntax.Parser Language) (now : Nat) (t : Ticket)
    (file : FileRef) (source : List UInt8) (language : Language) :
    Except Error Document × Cache :=
  let c := { c with counts.misses := c.counts.misses + 1 }.countParse
  match read parser file source language with
  | .error e => (.error e, c.release t)
  | .ok d => (.ok d, c.present now t d)

/-- The document of a file with the given source: a kept one if it answers, else one read anew. -/
def get (c : Cache) (parser : Syntax.Parser Language) (now : Nat) (file : FileRef)
    (source : List UInt8) (language : Language) : Except Error Document × Cache :=
  if !c.settings.enabled then (read parser file source language, c.countParse)
  else
    let key := Key.of file.project file.relative
    let fingerprint := Fingerprint.of file.modified source
    match c.lookup now key fingerprint language with
    | (some d, c) => (.ok d, c)
    | (none, c) =>
      let (t, c) := c.takeTicket key
      -- Another reader may have stored the document before the ticket was taken.
      match c.lookup now key fingerprint language with
      | (some d, c) => (.ok d, c.release t)
      | (none, c) => c.readWith parser now t file source language

/-! ## Invalidation -/

def setGeneration (project : String) (n : Nat) : List (String × Nat) → List (String × Nat)
  | [] => [(project, n)]
  | (other, m) :: rest =>
    if other = project then (project, n) :: rest else (other, m) :: setGeneration project n rest

/-- Make the tickets of a project worthless. -/
def bump (c : Cache) (project : String) : Cache :=
  { c with generations := setGeneration project (c.generation project + 1) c.generations }

/-- Drop the document of one file, and tell whether there was one. -/
def invalidate (c : Cache) (key : Key) : Bool × Cache :=
  let (n, c) := c.dropWhere fun k _ => k = key
  (n > 0, c.countInvalidations n)

/-- Drop the documents of a project, and tell how many there were. -/
def invalidateProject (c : Cache) (project : String) : Nat × Cache :=
  let (n, c) := (c.bump project).dropWhere fun key _ => key.project = project
  (n, c.countInvalidations n)

/-- Drop the documents of a project and store none for it until it is activated. -/
def retire (c : Cache) (project : String) : Nat × Cache :=
  invalidateProject { c with retired := project :: c.retired.filter (· ≠ project) } project

/-- Store documents for a project again. -/
def activate (c : Cache) (project : String) : Cache :=
  { c with retired := c.retired.filter (· ≠ project) }.bump project

/-- Drop all documents, and tell how many there were. -/
def clear (c : Cache) : Nat × Cache :=
  (c.size, { c with slots := [], footprint := 0 }.countInvalidations c.size)

/-! ## Statistics -/

structure Stats where
  enabled : Bool
  entries : Nat
  counts : Counts
  footprint : Nat
  maxBytes : Nat
  ttl : Option Nat
deriving DecidableEq, Repr

def stats (c : Cache) : Stats where
  enabled := c.settings.enabled
  entries := c.size
  counts := c.counts
  footprint := c.footprint
  maxBytes := c.settings.maxBytes
  ttl := c.settings.ttl

def Stats.toValue (s : Stats) : Json.Value :=
  .object [
    ("enabled", .bool s.enabled), ("entries", .nat s.entries), ("hits", .nat s.counts.hits),
    ("misses", .nat s.counts.misses), ("evictions", .nat s.counts.evictions),
    ("invalidations", .nat s.counts.invalidations), ("parses", .nat s.counts.parses),
    ("footprint_bytes", .nat s.footprint), ("max_bytes", .nat s.maxBytes),
    ("ttl_seconds", .natOr? s.ttl)]

end Cache

end CodeAtlas
