import PreviewControl.Proofs.RecordMerge
import PreviewControl.Proofs.Survey

/-!
# A server that hosts a record

An API server as far as one record goes. It keeps the record as a document, into which patches are
merged as in RFC 7386. A patch that names another version than the document has is refused, and
every other one gives the document a new version. Through the path of the status nothing but the
status is written, and through the path of the record everything else. A record that is being
deleted goes away with its last finalizer.

What the client makes of such a server is read off its requests: each of its writes names the
version that it is based on, and is merged only into a document of this version.
-/
namespace PreviewControl

open Http (Request Exchange Method Target)
open Reconcile (restated)

/-! ## Documents -/

namespace Json

/-- The names of the members of an object. -/
def names (j : Json) : List String := (j.fields?.getD []).map (·.1)

/-- Puts a member of one object into another one, or takes it away there if there is none. -/
def graft (name : String) (source target : Json) : Json :=
  match source.get? name with
  | some value => target.set name value
  | none => obj ((target.fields?.getD []).filter (·.1 != name))

end Json

/-- A server that hosts a record. -/
structure Host where
  key : RecordKey
  /-- The document of the record, if there is one. -/
  document : Option Json
  /-- The version that the next write gives to the document. -/
  stamp : String

namespace Host

/-- The version that a document tells. -/
def versionIn (document : Json) : Option String :=
  (document.follow ["metadata", Metadata.versionField]).text?

def versioned (version : String) (document : Json) : Json :=
  document.set "metadata"
    ((document.follow ["metadata"]).set Metadata.versionField (.str version))

/-- A record that is being deleted and that nothing holds any more. -/
def isSpent (document : Json) : Bool :=
  (Metadata.read? (document.follow ["metadata"])).any fun m => m.isDeleting && m.heldBy.isEmpty

/-- What is served under a path. -/
inductive Part where
  | record
  | status

namespace Part

/-- What a merged document changes of a document when it is written through a path. -/
def write (document merged : Json) : Part → Json
  | record => Json.graft "status" document merged
  | status => Json.graft "status" merged document

/-- What is kept of a document that has been written. -/
def kept? (written : Json) : Part → Option Json
  | record => if isSpent written then none else some written
  | status => some written

/-- The end of the path. -/
def suffix : Part → String
  | record => ""
  | status => "/status"

end Part

/-- The path under which the record is served. -/
def path (host : Host) : String :=
  Http.collection .environment (some host.key.ns) ++ "/" ++ host.key.name

def part? (host : Host) (path : String) : Option Part :=
  if path = host.path then some .record
  else if path = host.path ++ "/status" then some .status
  else none

/-- An answer before it is spelled out, and the document that is kept from then on. -/
structure Reply where
  code : Nat
  body : Json
  document : Option Json

/-- The description of a failure. -/
def fault (code : Nat) (reason message : String) : Json :=
  .obj [("apiVersion", .str "v1"), ("kind", .str "Status"), ("metadata", .obj []),
    ("status", .str "Failure"), ("message", .str message), ("reason", .str reason),
    ("code", .int code)]

/-- A refusal changes nothing. -/
def refuse (host : Host) (code : Nat) (reason message : String) : Reply :=
  ⟨code, fault code reason message, host.document⟩

def missing (host : Host) : Reply := host.refuse 404 "NotFound" "not found"

/-- The answer to a read. -/
def read (host : Host) : Reply :=
  match host.document with
  | none => host.missing
  | some document => ⟨200, document, some document⟩

/-- The answer to a patch. -/
def merge (host : Host) (part : Part) (patch : Json) : Reply :=
  match host.document with
  | none => host.missing
  | some document =>
    let merged := document.mergePatch patch
    -- A patch that names no version is taken whatever the version is.
    if versionIn merged = none ∨ versionIn merged = versionIn document then
      let written := versioned host.stamp (part.write document merged)
      ⟨200, written, part.kept? written⟩
    else host.refuse 409 "Conflict" "the object has been modified"

/-- The answer to a request. Of those that write only merge patches are answered otherwise than by a
refusal. -/
def respond (host : Host) (r : Request) : Reply :=
  match host.part? r.target.path with
  | none => host.missing
  | some part =>
    match r.method, r.body with
    | .get, _ => host.read
    | .patch, some (.obj changes) =>
      if r.contentType = some Http.mergePatch then host.merge part (.obj changes)
      else host.refuse 415 "UnsupportedMediaType" "the type of the patch is not supported"
    | _, _ => host.refuse 405 "MethodNotAllowed" "the server does not allow this method"

/-! ## Conversations -/

/-- What may come of a conversation with a host, and how it leaves the host. -/
def Talk (α : Type) : Type := Host → α → Host → Prop

instance : Monad Talk where
  pure a := fun host b host' => b = a ∧ host' = host
  bind talk next := fun host b host'' => ∃ a host', talk host a host' ∧ next a host' b host''

/-- A request with its answer, which may be spelled in any way in which it can be read. -/
def send (r : Request) : Talk Exchange := fun host e host' =>
  ∃ text, Json.scan? text = some (host.respond r).body ∧
    e = .ok ⟨(host.respond r).code, text.toUTF8.data.toList⟩ ∧
    host'.key = host.key ∧ host'.document = (host.respond r).document

/-! ## Documents of records -/

/-- A document shows a record: the record is read from it, it is an object that repeats no name, and
so are its metadata, and its status is no list. -/
structure Shows (document : Json) (env : Environment) : Prop where
  reads : Environment.read? document = some env
  isObject : document.fields?.isSome = true
  once : document.names.Nodup
  metadataOnce : (document.follow ["metadata"]).names.Nodup
  statusUnlisted : (document.follow ["status"]).items? = none

end Host

/-! ## Laws of documents -/

namespace Json

variable {target : List (String × Json)}

/-- A graft changes nothing but the member of its name. -/
theorem exists_graft (source : List (String × Json)) (once : (target.map (·.1)).Nodup)
    (name : String) : ∃ out,
    graft name (.obj source) (.obj target) = .obj out ∧ (out.map (·.1)).Nodup ∧
      ∀ other, out.lookup other =
        if other = name then source.lookup name else target.lookup other := by
  cases hsource : source.lookup name with
  | some value =>
    refine ⟨setField name value target, ?_, once_setField once name value,
      lookup_setField name value target⟩
    simp only [graft, get?, hsource, set]
  | none =>
    refine ⟨target.filter (·.1 != name), ?_, once.sublist (List.filter_sublist.map _),
      fun other => lookup_filter_ne name other target⟩
    simp only [graft, get?, hsource, fields?, Option.getD_some]

end Json

namespace Host

/-- The members of a document that shows a record. -/
structure Laid (fields given : List (String × Json)) (env : Environment) : Prop where
  once : (fields.map (·.1)).Nodup
  metadata : fields.lookup "metadata" = some (.obj given)
  metadataOnce : (given.map (·.1)).Nodup
  readable : Metadata.read? (.obj given) = some env.metadata
  spec : Json.field fields "spec" Spec.read? = some env.spec
  status : Json.optional fields "status" Status.read? = some env.status
  unlisted : ∀ items, fields.lookup "status" ≠ some (.arr items)

variable {document : Json} {env old : Environment} {fields given : List (String × Json)}

theorem shows_iff :
    Shows document env ↔ ∃ fields given, document = .obj fields ∧ Laid fields given env := by
  constructor
  · intro h
    obtain ⟨fields, hfields⟩ := Option.isSome_iff_exists.1 h.isObject
    cases document with
    | obj fields' =>
      cases hfields
      obtain ⟨_, hmetadata, hspec, hstatus⟩ := Environment.read?_eq_some_iff.1 h.reads
      obtain ⟨given, hgiven, hreadable⟩ := Environment.exists_metadata hmetadata
      refine ⟨fields, given, rfl, h.once, hgiven, ?_, hreadable, hspec, hstatus,
        fun items hitems => ?_⟩
      · have := h.metadataOnce
        rwa [Json.follow, Json.get?, hgiven] at this
      · have := h.statusUnlisted
        rw [Json.follow, Json.get?, hitems] at this
        cases this
    | _ => cases hfields
  · rintro ⟨fields, given, rfl, laid⟩
    refine ⟨Environment.read?_eq_some_iff.2 ⟨laid.once.filter _, ?_, laid.spec, laid.status⟩,
      rfl, laid.once, ?_, ?_⟩
    · rw [Json.field, laid.metadata]
      exact laid.readable
    · rw [Json.follow, Json.get?, laid.metadata]
      exact laid.metadataOnce
    · rw [Json.follow, Json.get?]
      cases hstatus : fields.lookup "status" with
      | none => rfl
      | some j =>
        cases j with
        | arr items => exact absurd hstatus (laid.unlisted items)
        | _ => rfl

/-- A document that has other metadata shows a record with other metadata. -/
theorem Laid.withMetadata (laid : Laid fields given env) {out given' : List (String × Json)}
    {m : Metadata} (once : (out.map (·.1)).Nodup)
    (metadata : out.lookup "metadata" = some (.obj given'))
    (metadataOnce : (given'.map (·.1)).Nodup) (readable : Metadata.read? (.obj given') = some m)
    (same : ∀ name, name ≠ "metadata" → out.lookup name = fields.lookup name) :
    Laid out given' { env with metadata := m } where
  once := once
  metadata := metadata
  metadataOnce := metadataOnce
  readable := readable
  spec := by
    rw [Json.field, same _ (by decide)]
    exact laid.spec
  status := (Json.optional_congr (same _ (by decide))).trans laid.status
  unlisted items := by
    rw [same _ (by decide)]
    exact laid.unlisted items

theorem Shows.versioned (h : Shows document env) (version : String) :
    Shows (versioned version document) (restated env (some version) env.status) := by
  obtain ⟨fields, given, rfl, laid⟩ := shows_iff.1 h
  have hversioned : Host.versioned version (.obj fields) = .obj (Json.setField "metadata"
      (.obj (Json.setField Metadata.versionField (.str version) given)) fields) := by
    rw [Host.versioned, Json.follow, Json.get?, laid.metadata]
    rfl
  rw [hversioned]
  refine shows_iff.2 ⟨_, _, rfl, laid.withMetadata (Json.once_setField laid.once _ _) ?_
    (Json.once_setField laid.metadataOnce _ _)
    (Metadata.read?_reversioned laid.metadataOnce laid.readable version) fun name hname => ?_⟩
  · rw [Json.lookup_setField, if_pos rfl]
  · rw [Json.lookup_setField, if_neg hname]

theorem Shows.versionIn (h : Shows document env) {version : String}
    (hversion : env.metadata.resourceVersion = some version) :
    versionIn document = some version := by
  obtain ⟨fields, given, rfl, laid⟩ := shows_iff.1 h
  have hlookup := Metadata.lookup_version laid.metadataOnce laid.readable hversion
  rw [Host.versionIn, Json.follow, Json.get?, laid.metadata]
  show ((given.lookup Metadata.versionField).getD .null).text? = _
  rw [hlookup]
  rfl

theorem Shows.isSpent (h : Shows document env) :
    isSpent document = (env.metadata.isDeleting && env.metadata.heldBy.isEmpty) := by
  obtain ⟨fields, given, rfl, laid⟩ := shows_iff.1 h
  rw [Host.isSpent, Json.follow, Json.get?, laid.metadata]
  show (Metadata.read? (.obj given)).any _ = _
  rw [laid.readable]
  rfl

/-! ## Patches of documents -/

/-- A patch names the version that it is merged with. -/
theorem versionIn_merged {changes named : List (String × Json)} {version : String}
    (once : (changes.map (·.1)).Nodup) (metadataOnce : (named.map (·.1)).Nodup)
    (hnamed : changes.lookup "metadata" = some (.obj named))
    (hversion : named.lookup Metadata.versionField = some (.str version)) (document : Json) :
    versionIn (document.mergePatch (.obj changes)) = some version := by
  have hmetadata : (document.mergePatch (.obj changes)).get? "metadata" =
      some (.obj (Json.mergeFields
        ((((document.fields?.getD []).lookup "metadata").getD .null).fields?.getD []) named)) := by
    rw [Json.mergePatch, Json.get?, Json.lookup_mergeFields once, hnamed]
    rfl
  rw [versionIn, Json.follow, hmetadata]
  show ((List.lookup Metadata.versionField (Json.mergeFields _ named)).getD .null).text? = _
  rw [Json.lookup_mergeFields metadataOnce, hversion]
  rfl

theorem versionIn_statusPatch {version : String}
    (hversion : old.metadata.resourceVersion = some version) (next : Status) (document : Json) :
    versionIn (document.mergePatch (Http.statusPatch old next)) = some version := by
  refine versionIn_merged (by simp) (by simp) rfl ?_ document
  show some (Http.versionOf old) = _
  rw [Http.versionOf, hversion]
  rfl

theorem versionIn_finalizerPatch {version : String}
    (hversion : old.metadata.resourceVersion = some version) (finalizers : List String)
    (document : Json) :
    versionIn (document.mergePatch (Http.finalizerPatch old finalizers)) = some version := by
  refine versionIn_merged (by simp) (by simp) rfl ?_ document
  show some (Http.versionOf old) = _
  rw [Http.versionOf, hversion]
  rfl

/-- Through the path of the record the finalizers are written as they are sent, and the status is
left as it was. -/
theorem Shows.write_finalizers (h : Shows document env) {version : String}
    (hversion : old.metadata.resourceVersion = some version) (finalizers : List String) :
    Shows (Part.record.write document (document.mergePatch (Http.finalizerPatch old finalizers)))
      (restated (Store.withFinalizers env finalizers) (some version) env.status) := by
  obtain ⟨fields, given, rfl, laid⟩ := shows_iff.1 h
  let held := Json.setField Metadata.finalizersField (.texts finalizers) given
  let named := Json.setField Metadata.versionField (.str version) held
  have hheld : (held.map (·.1)).Nodup := Json.once_setField laid.metadataOnce _ _
  have hmerged : (Json.obj fields).mergePatch (Http.finalizerPatch old finalizers) =
      .obj (Json.setField "metadata" (.obj named) fields) := by
    have hpatch : Http.finalizerPatch old finalizers = .obj [("metadata",
        .obj [(Metadata.finalizersField, .texts finalizers),
          (Metadata.versionField, .str version)])] := by
      rw [Http.finalizerPatch, Http.versionOf, hversion]
      rfl
    rw [hpatch]
    show Json.obj (Json.setField "metadata" (Json.mergePatch
      ((fields.lookup "metadata").getD .null) _) fields) = _
    rw [laid.metadata]
    rfl
  have honce : ((Json.setField "metadata" (.obj named) fields).map (·.1)).Nodup :=
    Json.once_setField laid.once _ _
  obtain ⟨out, hout, hnodup, hlookup⟩ := Json.exists_graft fields honce "status"
  rw [Part.write, hmerged, hout]
  refine shows_iff.2 ⟨out, named, rfl, laid.withMetadata hnodup ?_ (Json.once_setField hheld _ _)
    (Metadata.read?_reversioned hheld
      (Metadata.read?_refinalized laid.metadataOnce laid.readable finalizers) version)
    fun name hname => ?_⟩
  · rw [hlookup, if_neg (by decide), Json.lookup_setField, if_pos rfl]
  · rw [hlookup]
    split
    · next hstatus => rw [hstatus]
    · exact (Json.lookup_setField _ _ _ _).trans (if_neg hname)

/-- The status that a document shows, member by member. -/
private theorem Laid.parts (laid : Laid fields given env) :
    Status.Parts (((fields.lookup "status").getD .null).fields?.getD []) env.known := by
  have hstatus := laid.status
  have hreadable := Environment.status_readable laid.status
  have none_known (h : some none = some env.status) : env.known = {} := by
    rw [Environment.known, ← Option.some.inj h]
    rfl
  cases hlookup : fields.lookup "status" with
  | none =>
    rw [Json.optional, hlookup] at hstatus
    rw [none_known hstatus]
    exact Status.parts_empty
  | some j =>
    rw [hlookup] at hreadable
    cases j with
    | null =>
      rw [Json.optional, hlookup] at hstatus
      rw [none_known hstatus]
      exact Status.parts_empty
    | obj members =>
      rcases hreadable with h | h
      · cases h
      · exact Status.parts_of_read h
    | arr items => exact absurd hlookup (laid.unlisted items)
    | bool | int | real | str | garbled =>
      rcases hreadable with h | h <;> cases h

/-- Through the path of the status it is merged into the one that was there, and all else stays. -/
theorem Shows.write_status (h : Shows document env) (next : Status) :
    Shows (Part.status.write document (document.mergePatch (Http.statusPatch old next)))
      { env with status := some (next.mergedInto env.known) } := by
  obtain ⟨fields, given, rfl, laid⟩ := shows_iff.1 h
  have hreadable : (fields.lookup "status").getD .null = .null ∨
      (Status.read? ((fields.lookup "status").getD .null)).isSome = true :=
    (Environment.status_readable laid.status).imp_right fun h => by rw [h]; rfl
  let changes := [("metadata", Json.obj [(Metadata.versionField, Http.versionOf old)]),
    ("status", next.toJson)]
  have hchanges : (changes.map (·.1)).Nodup := by simp [changes]
  obtain ⟨out, hout, hnodup, hlookup⟩ :=
    Json.exists_graft (Json.mergeFields fields changes) laid.once "status"
  have hmerged : (Json.obj fields).mergePatch (Http.statusPatch old next) =
      .obj (Json.mergeFields fields changes) := rfl
  have hstatus : out.lookup "status" =
      some (((fields.lookup "status").getD .null).mergePatch next.toJson) := by
    rw [hlookup, if_pos rfl, Json.lookup_mergeFields hchanges]
    rfl
  have hsame (name : String) (hname : name ≠ "status") : out.lookup name = fields.lookup name := by
    rw [hlookup, if_neg hname]
  rw [Part.write, hmerged, hout]
  exact shows_iff.2 ⟨out, given, rfl, {
    once := hnodup
    metadata := (hsame _ (by decide)).trans laid.metadata
    metadataOnce := laid.metadataOnce
    readable := laid.readable
    spec := by
      rw [Json.field, hsame _ (by decide)]
      exact laid.spec
    status := by
      have hnull : next.toJson ≠ .null := fun hnull => by cases hnull
      rw [Json.optional_of_ne_null hstatus (Json.mergePatch_ne_null hnull _),
        Status.read?_merged laid.parts hreadable]
      rfl
    unlisted := fun items hitems => by
      rw [hstatus] at hitems
      cases hitems }⟩

/-! ## Replies -/

variable {host : Host} {part : Part} {patch : Json}

theorem read_of_missing (gone : host.document = none) : host.read = host.missing := by
  rw [read, gone]

theorem read_of_there (there : host.document = some document) :
    host.read = ⟨200, document, some document⟩ := by
  rw [read, there]

theorem merge_of_missing (gone : host.document = none) :
    host.merge part patch = host.missing := by
  rw [merge, gone]

theorem merge_of_current (there : host.document = some document)
    (current : versionIn (document.mergePatch patch) = versionIn document) :
    host.merge part patch =
      ⟨200, versioned host.stamp (part.write document (document.mergePatch patch)),
        part.kept? (versioned host.stamp (part.write document (document.mergePatch patch)))⟩ := by
  rw [merge, there]
  exact if_pos (.inr current)

theorem merge_of_outdated (there : host.document = some document) {version : String}
    (named : versionIn (document.mergePatch patch) = some version)
    (outdated : versionIn document ≠ some version) :
    host.merge part patch = host.refuse 409 "Conflict" "the object has been modified" := by
  rw [merge, there]
  refine if_neg ?_
  rw [named]
  rintro (h | h)
  · cases h
  · exact outdated h.symm

end Host
end PreviewControl
