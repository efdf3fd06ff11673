import PreviewControl.Proofs.Contention
import PreviewControl.Proofs.Requests

/-!
# Updates through the client

Each write of the client goes out as a merge patch that names the version on which it is based. So
what a server that hosts the record makes of it is a write that is accepted or refused by its
version, and no update is lost.
-/
namespace PreviewControl

namespace Contest

open Host (Shows Part)
open Reconcile

/-- A host holds the record as it is stored, and the version that it gives out next is new. -/
structure Hosted (x : Contest) (host : Host) : Prop where
  key : host.key = x.pass.key
  document : Option.Rel Shows host.document x.stored
  fresh : host.stamp ∉ x.given

variable {x : Contest} {c : Call} {env cur : Environment} {host host' : Host}

theorem Hosted.gone_or_there (hosted : x.Hosted host) :
    (host.document = none ∧ x.stored = none) ∨ ∃ document cur,
      host.document = some document ∧ x.stored = some cur ∧ Shows document cur := by
  have holds := hosted.document
  cases hdocument : host.document with
  | none =>
    cases hstored : x.stored with
    | none => exact .inl ⟨rfl, rfl⟩
    | some cur =>
      rw [hdocument, hstored] at holds
      cases holds
  | some document =>
    cases hstored : x.stored with
    | none =>
      rw [hdocument, hstored] at holds
      cases holds
    | some cur =>
      rw [hdocument, hstored] at holds
      cases holds with
      | some shows => exact .inr ⟨document, cur, rfl, rfl, shows⟩

/-- A host has made of a call what the server makes of it, and holds what is stored then. -/
structure Mirrors (x : Contest) (c : Call) (answer : c.Answer) (host : Host) : Prop where
  key : host.key = x.pass.key
  served : ∃ stored, x.Serves c answer stored ∧ Option.Rel Shows host.document stored

/-- A patch that names the version on which it is based is answered as a write of the record, if
what it makes of a document of this version is what the write makes of the record. -/
private theorem Coherent.serves_patch (h : x.Coherent) (asks : x.pass.pass.Asks x.pass.trace c)
    (basis : c.basis? = some env) (addressable : x.pass.key.Addressable) (hosted : x.Hosted host)
    (part : Part) (result : Except Failure Environment → c.Answer)
    {query : List (String × String)} {changes : List (String × Json)} {answer : c.Answer}
    (hquery : query = [] ∨ query = Http.inName)
    (named : ∀ (version : String) (document : Json), env.version? = some version →
      Host.versionIn (document.mergePatch (.obj changes)) = some version)
    (refusal : ∀ e, result (.error e) = .error e)
    (accepted : ∀ cur document, x.stored = some cur → env.version? = cur.version? →
      Shows document cur → ∃ after stored,
        Shows (part.write document (document.mergePatch (.obj changes))) after ∧
        x.Serves c (result (.ok (restated after (some host.stamp) after.status))) stored ∧
        ∀ written, Shows written (restated after (some host.stamp) after.status) →
          Option.Rel Shows (part.kept? written) stored)
    (sent : Http.sendThen Host.send (Http.recordPatch env part.suffix query (.obj changes))
      (fun e => result (Http.valueOf e Environment.read?)) host answer host') :
    x.Mirrors c answer host' := by
  obtain ⟨hkey, v, _, hversion⟩ := h.told env (basis_of_asks asks basis)
  obtain ⟨kept, hdocument, text, spelled, rfl⟩ := (Host.sendThen_patch_iff
    (hosted.key ▸ addressable) (hkey.trans hosted.key.symm) part hquery).1 sent
  refine ⟨kept.trans hosted.key, ?_⟩
  rcases hosted.gone_or_there with ⟨gone, hgone⟩ | ⟨document, cur, there, hthere, shows⟩
  · rw [Host.merge_of_missing gone] at spelled hdocument ⊢
    refine ⟨x.stored, ?_, hdocument ▸ hosted.document⟩
    rw [Host.missing, Host.refuse, Host.valueOf_fault rfl (by decide) spelled, refusal]
    exact .missing basis hgone rfl
  · obtain ⟨w, _, hw⟩ := h.versioned cur hthere
    have hshown : Host.versionIn document = cur.version? := (shows.versionIn hw).trans hw.symm
    by_cases current : env.version? = cur.version?
    · obtain ⟨after, stored, hafter, serves, hkept⟩ := accepted cur document hthere current shows
      have hwritten := hafter.versioned host.stamp
      have hmerged : Host.versionIn (document.mergePatch (.obj changes)) =
          Host.versionIn document := by rw [named v document hversion, hshown, ← current, hversion]
      rw [Host.merge_of_current there hmerged] at spelled hdocument ⊢
      refine ⟨stored, ?_, hdocument ▸ hkept _ hwritten⟩
      rw [Host.valueOf_accepted spelled hwritten.reads]
      exact serves
    · have outdated : Host.versionIn document ≠ some v := by
        rw [hshown, ← hversion]
        exact Ne.symm current
      rw [Host.merge_of_outdated there (named v document hversion) outdated] at spelled hdocument ⊢
      refine ⟨x.stored, ?_, hdocument ▸ hosted.document⟩
      rw [Host.refuse, Host.valueOf_fault rfl (by decide) spelled, refusal]
      exact .conflict basis hthere current rfl

/-- A document that has been written is kept as the record that it shows is. -/
private theorem kept_of_shows {written : Json} (shows : Shows written env) :
    Option.Rel Shows (Part.record.kept? written) env.remnant? := by
  rw [Part.kept?, shows.isSpent, Environment.remnant?]
  split
  · exact .none
  · exact .some shows

/-- A record on which a finalizer has been put stays. -/
private theorem remnant?_of_held (cur : Environment) (version : String) (finalizers : List String) :
    Environment.remnant? (cur.refinalized version (finalizers ++ [Environment.cleanupFinalizer])) =
      some (cur.refinalized version (finalizers ++ [Environment.cleanupFinalizer])) := by
  have held : (cur.refinalized version
      (finalizers ++ [Environment.cleanupFinalizer])).metadata.heldBy =
        finalizers ++ [Environment.cleanupFinalizer] := rfl
  rw [Environment.remnant?, held, if_neg (by simp)]

/-- A call about the record is the read of it or a write that is based on a version of it. -/
private theorem read_or_write_of_asks {config : Config} {notice : Metadata} {now : Instant}
    {t : List Deed} (asks : (Reconcile.pass config notice now).Asks t c)
    (about : c.isAside = false) :
    (∃ ns, notice.ns = some ns ∧ c = .getEnvironment notice.anyName ns) ∨
      c.basis?.isSome = true := by
  cases turn_of_asks asks with
  | read place => exact .inl ⟨_, place, rfl⟩
  | hold | refuse | mark | letGo => exact .inr rfl
  | converge _ _ _ _ turn =>
    cases turn with
    | accept | write => exact .inr rfl
    | price => cases about
    | tend _ upkeep => cases upkeep <;> cases about
  | clear _ _ _ _ _ _ turn =>
    rcases Child.asks_removeOwned (Child.asks_remove.1 turn) with ⟨_, rfl⟩ | ⟨_, _, _, rfl⟩ <;>
      cases about

/-- The finalizer is put only on a record that does not carry it. -/
private theorem free_of_asks (asks : x.pass.pass.Asks x.pass.trace (.addFinalizer env)) :
    env.hasFinalizer = false := by
  obtain ⟨_, _, _, _, _, writing⟩ := writing_of_asks rfl asks
  cases writing with
  | hold _ free => exact free

/-- The client reads the record that is stored, and leaves it as it is. -/
private theorem Hosted.serves_read (hosted : x.Hosted host) (addressable : x.pass.key.Addressable)
    {name ns : String} (about : x.pass.key = ⟨ns, name⟩)
    {answer : (Call.getEnvironment name ns).Answer}
    (answered : Http.answer Host.send (.getEnvironment name ns) host answer host') :
    x.Mirrors (.getEnvironment name ns) answer host' := by
  have hkey : host.key = ⟨ns, name⟩ := hosted.key.trans about
  have reachable : host.key.Addressable := hosted.key ▸ addressable
  have hrequest := Host.objectRequest_eq reachable
  rw [hkey] at hrequest
  rw [Http.answer, hrequest] at answered
  obtain ⟨_, ⟨text, spelled, rfl, kept, hdocument⟩, rfl⟩ := Host.sendThen_iff.1 answered
  rw [Host.respond_get] at spelled hdocument ⊢
  refine ⟨kept.trans hosted.key, x.stored, ?_⟩
  have serves : x.Serves (.getEnvironment name ns) (.ok x.stored) x.stored := .read about
  rcases hosted.gone_or_there with ⟨gone, hgone⟩ | ⟨document, cur, there, hthere, shows⟩
  · rw [Host.read_of_missing gone] at spelled hdocument ⊢
    refine ⟨?_, hdocument ▸ hosted.document⟩
    rw [Http.objectOf?, Host.missing, Host.refuse, Host.valueOf_fault rfl (by decide) spelled]
    rw [hgone] at serves ⊢
    exact serves
  · rw [Host.read_of_there there] at spelled hdocument ⊢
    refine ⟨?_, ?_⟩
    · rw [Http.objectOf?, Host.valueOf_accepted spelled shows.reads]
      rw [hthere] at serves ⊢
      exact serves
    · rw [hdocument, hthere]
      exact .some shows

/-- Whatever the client asks of a host about the record, the host makes of it what the server
makes. -/
theorem Coherent.mirrors (h : x.Coherent) (asks : x.pass.pass.Asks x.pass.trace c)
    (about : c.isAside = false) (addressable : x.pass.key.Addressable) (hosted : x.Hosted host)
    {answer : c.Answer} (answered : Http.answer Host.send c host answer host') :
    x.Mirrors c answer host' := by
  rcases read_or_write_of_asks asks about with ⟨ns, place, rfl⟩ | writes
  · have key : x.pass.key = ⟨ns, x.pass.notice.anyName⟩ := by
      rw [Episode.key, place]
      rfl
    exact hosted.serves_read addressable key answered
  cases c with
  | patchStatus env status =>
    refine h.serves_patch asks rfl addressable hosted .status id (.inr rfl)
      (fun _ document hversion => Host.versionIn_statusPatch hversion status document)
      (fun _ => rfl) (fun cur document there current shows => ?_) answered
    have keyed := (h.told env (basis_of_asks asks rfl)).1
    exact ⟨_, _, shows.write_status status, .status keyed there current hosted.fresh,
      fun _ shows => .some shows⟩
  | addFinalizer env =>
    rw [Http.answer, free_of_asks asks, if_neg (by decide)] at answered
    refine h.serves_patch asks rfl addressable hosted .record Http.ignoring
      (.inl rfl) (fun _ document hversion => Host.versionIn_finalizerPatch hversion _ document)
      (fun _ => rfl) (fun cur document there current shows => ?_) answered
    obtain ⟨keyed, v, _, hversion⟩ := h.told env (basis_of_asks asks rfl)
    refine ⟨_, _, shows.write_finalizers hversion _, .hold keyed there current hosted.fresh,
      fun written shows => ?_⟩
    exact remnant?_of_held cur host.stamp _ ▸ kept_of_shows shows
  | removeFinalizer env =>
    refine h.serves_patch asks rfl addressable hosted .record Http.ignoring
      (.inl rfl) (fun _ document hversion => Host.versionIn_finalizerPatch hversion _ document)
      (fun _ => rfl) (fun cur document there current shows => ?_) answered
    obtain ⟨keyed, v, _, hversion⟩ := h.told env (basis_of_asks asks rfl)
    exact ⟨_, _, shows.write_finalizers hversion _, .letGo keyed there current hosted.fresh,
      fun written shows => kept_of_shows shows⟩
  | _ => cases writes

/-! ## No lost updates -/

/-- The server refuses a write of a record that is there because it is based on an old version,
exactly if the record has been stirred. -/
private theorem Coherent.refused_iff (h : x.Coherent) (asks : x.pass.pass.Asks x.pass.trace c)
    (basis : c.basis? = some env) {answer : c.Answer} {stored : Option Environment}
    (serves : x.Serves c answer stored) (there : x.stored.isSome = true) :
    (∃ e, answer = .error e ∧ e.isConflict = true) ↔ stirred x.log = true := by
  have hserved := serves
  constructor
  · rintro ⟨e, rfl, hkind⟩
    cases serves with
    | aside aside =>
      rw [Call.basis?_of_isAside aside] at basis
      cases basis
    | conflict hbasis hcur outdated =>
      refine Bool.of_not_eq_false fun hs => ?_
      exact outdated ((h.current_iff asks hbasis hcur).2 hs)
    | missing _ gone =>
      rw [gone] at there
      cases there
  · intro hs
    cases answer with
    | ok reply =>
      have hcur := hserved.stored h asks basis
      rw [(h.current_iff asks basis hcur).1 rfl] at hs
      cases hs
    | error e =>
      cases serves with
      | aside aside =>
        rw [Call.basis?_of_isAside aside] at basis
        cases basis
      | conflict _ _ _ kind => exact ⟨e, rfl, kind⟩
      | missing _ gone =>
        rw [gone] at there
        cases there

/-- A write that the server accepts, whether or not the pass hears of it, replaces exactly the
record on which it is based and loses nothing that others have written. A write of a record that is
there is refused as outdated exactly if the record has changed since the pass was last told of it.
A refused write changes nothing and ends the pass, which comes back after a second if the write was
outdated; only a mark does not end it, and when a mark has been refused as outdated, then so is all
that is left to write, the release of the record. All this is true of the client over a server that
hosts the record as a document: whatever it asks about the record is answered in this way. -/
theorem no_update_lost {others : Option Environment → Option Environment → Prop} {x : Contest}
    {c : Call} {env : Environment} (reachable : x.Reachable others)
    (asks : x.pass.pass.Asks x.pass.trace c) (basis : c.basis? = some env) :
    (∀ reply stored, x.Serves c (.ok reply) stored →
      x.stored = some env ∧ Revises x.pass env c stored) ∧
    (∀ answer stored, x.Serves c answer stored → x.stored.isSome = true →
      ((∃ e, answer = .error e ∧ e.isConflict = true) ↔ stirred x.log = true)) ∧
    (∀ e stored, x.Serves c (.error e) stored → stored = x.stored ∧
      (x.stored.isSome = true → e.isConflict = true ∧ afterFailure e = .after 1) ∧
      (c.isMark = false →
        x.pass.pass.Breaks (x.pass.trace ++ .call c (.error e) :: failing e) e)) ∧
    (conflicted x.log = true → c = .removeFinalizer env ∧
      ∀ answer stored, x.Serves c answer stored → ∃ e, answer = .error e) ∧
    (∀ (c' : Call) (answer : c'.Answer) host host', x.pass.key.Addressable → x.Hosted host →
      x.pass.pass.Asks x.pass.trace c' → c'.isAside = false →
      Http.answer Host.send c' host answer host' → x.Mirrors c' answer host') := by
  have h := reachable.coherent
  have writes : c.basis?.isSome = true := by rw [basis]; rfl
  refine ⟨fun reply stored serves => ?_, fun answer stored serves there => ?_,
    fun e stored serves => ?_, fun hc => ?_,
    fun c' answer host host' addressable hosted asks about =>
      h.mirrors asks about addressable hosted⟩
  · exact ⟨serves.stored h asks basis, serves.revises h asks basis⟩
  · exact h.refused_iff asks basis serves there
  · refine ⟨serves.kept, fun there => ?_, fun plain => breaks_of_refused writes plain asks e⟩
    have hkind : e.isConflict = true := by
      cases serves with
      | aside aside =>
        rw [Call.basis?_of_isAside aside] at writes
        cases writes
      | conflict _ _ _ kind => exact kind
      | missing _ gone =>
        rw [gone] at there
        cases there
    exact ⟨hkind, if_pos hkind⟩
  · obtain ⟨hs, d, e, hd, hbasis⟩ := h.conflicts hc
    obtain ⟨latest, rfl⟩ := release_of_asks writes asks hd hbasis
    obtain rfl : latest = env := Option.some.inj basis
    refine ⟨rfl, fun answer stored serves => ?_⟩
    cases answer with
    | error e => exact ⟨e, rfl⟩
    | ok reply =>
      rw [h.not_conflicted asks serves writes] at hc
      cases hc

/-! ## A write that comes too late -/

/-- A record that nothing holds yet. -/
def unheld : Environment :=
  { newcomer with metadata := { newcomer.metadata with
      resourceVersion := some "1", finalizers := none } }

/-- The same record with a label that others have put on it. -/
def labelled : Environment :=
  { unheld with metadata := { unheld.metadata with
      resourceVersion := some "2", labels := some [(Environment.pinLabel, "true")] } }

/-- The beginning of a pass over the record. -/
def opening : Contest where
  stored := some unheld
  given := ["1"]
  pass := { config := {}, notice := unheld.metadata, now := default }
  log := []

/-- The pass has read the record. -/
def informed : Contest :=
  let d : Deed := read unheld.metadata "previews" unheld
  (opening.put (some unheld)).go d (.answered d)

/-- Others have put their label on the record. -/
def outpaced : Contest := { informed.put (some labelled) with log := .others :: informed.log }

theorem reachable_informed : informed.Reachable fun _ _ => True := by
  have start : opening.Reachable fun _ _ => True := by
    refine .start ⟨fun env henv => ?_, fun env henv => ?_, rfl, rfl⟩
    · cases henv
      rfl
    · cases henv
      exact ⟨"1", List.mem_singleton_self _, rfl⟩
  exact start.step (.answer ⟨_, .start _⟩ (.read rfl))

theorem reachable_outpaced : outpaced.Reachable fun _ _ => True := by
  refine reachable_informed.step (.others trivial fun env henv => ?_)
  cases henv
  exact ⟨rfl, "2", rfl, by decide⟩

/-! The record on two servers, before and after the label has been put on it. -/

/-- The record as a document, with this version and with these members of its metadata beside. -/
def documentOf (version : String) (others : List (String × Json)) (number : Json := .int 5) :
    Json :=
  .obj [("apiVersion", .str "preview.dev/v1alpha1"), ("kind", .str "PreviewEnvironment"),
    ("metadata", .obj (others ++ [("name", .str "shop"), ("namespace", .str "previews"),
      ("resourceVersion", .str version), ("uid", .str "u-5")])),
    ("spec", .obj [("repository", .obj [("owner", .str "owner"), ("name", .str "shop")]),
      ("prNumber", number), ("headSha", .str "0123456789abcdef0123456789abcdef01234567"),
      ("ttl", .str "4h")])]

def heldDocument (number : Json := .int 5) : Json :=
  documentOf "2" [("finalizers", .texts [Environment.cleanupFinalizer])] number

def early : Host := ⟨⟨"previews", "shop"⟩, some (documentOf "1" []), "2"⟩

def late : Host where
  key := ⟨"previews", "shop"⟩
  document := some (documentOf "2" [("labels", .obj [(Environment.pinLabel, .str "true")])])
  stamp := "3"

theorem hosted_informed : informed.Hosted early where
  key := rfl
  document := .some ⟨rfl, rfl, by decide +kernel, by decide +kernel, rfl⟩
  fresh := by decide

theorem hosted_outpaced : outpaced.Hosted late where
  key := rfl
  document := .some ⟨rfl, rfl, by decide +kernel, by decide +kernel, rfl⟩
  fresh := by decide

theorem addressable_unheld : unheld.key.Addressable := by
  constructor <;> decide

/-- What comes of the finalizer that the pass wants to put on the record. -/
private theorem answer_hold (host host' : Host) {reply : Host.Reply} {text : String}
    (about : unheld.key = host.key) (kept : host'.key = host.key)
    (merged : reply = host.merge .record
      (Http.finalizerPatch unheld [Environment.cleanupFinalizer]))
    (spelled : Json.scan? text = some reply.body) (left : host'.document = reply.document) :
    Http.answer Host.send (.addFinalizer unheld) host (Http.ignoring
      (Http.valueOf (.ok ⟨reply.code, text.toUTF8.data.toList⟩) Environment.read?)) host' := by
  have free : ¬ unheld.hasFinalizer = true := by decide
  have addressable : host.key.Addressable := about ▸ addressable_unheld
  subst merged
  rw [Http.answer, if_neg free]
  exact (Host.sendThen_patch_iff addressable about .record (.inl rfl)).2
    ⟨kept, left, text, spelled, rfl⟩

private theorem toList_append {s t : String} {cs ds : List Char} (hs : s.toList = cs)
    (ht : t.toList = ds) : (s ++ t).toList = cs ++ ds := by rw [String.toList_append, hs, ht]

/-- A text is read character by character. -/
private theorem scan?_of_toList {s : String} {cs : List Char} (h : s.toList = cs) : Json.scan? s =
    (Json.Token.readAll (cs.length + 1) [] cs).bind fun tokens =>
      (tokens.foldlM Json.Progress.step? (.value [])).bind (·.result?) := by
  rw [Json.scan?, Json.Token.ofText?, h]
  rfl

private theorem ofNumeral_whole {digits : List Char}
    (fits : Json.fitsWord (digitsValue digits) false = true) :
    Json.ofNumeral false digits [] none = .int (digitsValue digits) := by
  simp [Json.ofNumeral, fits]

def heldText : String :=
  "\x7b\"apiVersion\":\"preview.dev/v1alpha1\",\"kind\":\"PreviewEnvironment\",\"metadata\":" ++
  "\x7b\"finalizers\":[\"preview.dev/cleanup\"],\"name\":\"shop\",\"namespace\":\"previews\"," ++
  "\"resourceVersion\":\"2\",\"uid\":\"u-5\"\x7d,\"spec\":\x7b\"repository\":" ++
  "\x7b\"owner\":\"owner\",\"name\":\"shop\"\x7d,\"prNumber\":5," ++
  "\"headSha\":\"0123456789abcdef0123456789abcdef01234567\",\"ttl\":\"4h\"\x7d\x7d"

def refusalText : String :=
  "\x7b\"apiVersion\":\"v1\",\"kind\":\"Status\",\"metadata\":\x7b\x7d,\"status\":\"Failure\"," ++
  "\"message\":\"the object has been modified\",\"reason\":\"Conflict\",\"code\":409\x7d"

set_option maxRecDepth 4000 in
theorem scan?_heldText : Json.scan? heldText = some heldDocument := by
  have spelled : heldText.toList = _ :=
    toList_append (toList_append (toList_append (toList_append String.toList_ofList
      String.toList_ofList) String.toList_ofList) String.toList_ofList) String.toList_ofList
  -- The number stays as it is spelled while the rest of the text is read.
  have read : Json.scan? heldText = some (heldDocument (.ofNumeral false ['5'] [] none)) :=
    (scan?_of_toList spelled).trans (by rfl)
  rw [read, ofNumeral_whole (by decide)]
  rfl

set_option maxRecDepth 4000 in
theorem scan?_refusalText : Json.scan? refusalText =
    some (Host.fault 409 "Conflict" "the object has been modified") := by
  have spelled : refusalText.toList = _ :=
    toList_append String.toList_ofList String.toList_ofList
  have hcode : Json.ofNumeral false ['4', '0', '9'] [] none = .int 409 :=
    ofNumeral_whole (by decide)
  have read : Json.scan? refusalText = some (.obj [("apiVersion", .str "v1"),
      ("kind", .str "Status"), ("metadata", .obj []), ("status", .str "Failure"),
      ("message", .str "the object has been modified"), ("reason", .str "Conflict"),
      ("code", .ofNumeral false ['4', '0', '9'] [] none)]) :=
    (scan?_of_toList spelled).trans (by rfl)
  rw [read, hcode]
  rfl

theorem answered_early : Http.answer Host.send (.addFinalizer unheld) early (.ok ())
    ⟨early.key, some heldDocument, "3"⟩ := by
  have merged : ⟨200, heldDocument, some heldDocument⟩ = early.merge .record
      (Http.finalizerPatch unheld [Environment.cleanupFinalizer]) := by rfl
  have reads : Environment.read? heldDocument =
      some (unheld.refinalized "2" [Environment.cleanupFinalizer]) := by rfl
  have answered := answer_hold early ⟨early.key, some heldDocument, "3"⟩ rfl rfl merged
    scan?_heldText rfl
  rw [Host.valueOf_accepted scan?_heldText reads] at answered
  exact answered

theorem answered_late : Http.answer Host.send (.addFinalizer unheld) late
    (.error (.rejected 409 "Conflict" "the object has been modified")) late := by
  have merged : late.refuse 409 "Conflict" "the object has been modified" = late.merge .record
      (Http.finalizerPatch unheld [Environment.cleanupFinalizer]) := by rfl
  have answered := answer_hold late late rfl rfl merged scan?_refusalText rfl
  rw [Host.refuse, Host.valueOf_fault rfl (by decide) scan?_refusalText] at answered
  exact answered

/-- The finalizer that the pass wants to put on the record is accepted if it comes in time. If it
comes after the label, it is refused, and the label stays. -/
theorem no_update_lost_outpaced :
    (∃ host' stored, Http.answer Host.send (.addFinalizer unheld) early (.ok ()) host' ∧
      informed.stored = some unheld ∧ Revises informed.pass unheld (.addFinalizer unheld) stored ∧
      Option.Rel Shows host'.document stored) ∧
    ∃ e host' stored, Http.answer Host.send (.addFinalizer unheld) late (.error e) host' ∧
      outpaced.Serves (.addFinalizer unheld) (.error e) stored ∧ stored = some labelled ∧
      Option.Rel Shows host'.document stored ∧ e.isConflict = true ∧
      outpaced.pass.pass.Breaks
        (outpaced.pass.trace ++ .call (.addFinalizer unheld) (.error e) :: failing e) e := by
  constructor
  · have asks : informed.pass.pass.Asks informed.pass.trace (.addFinalizer unheld) :=
      ⟨_, .call (.start _)⟩
    obtain ⟨accepted, _, _, _, mirrors⟩ := no_update_lost reachable_informed asks rfl
    obtain ⟨_, stored, serves, shows⟩ :=
      mirrors _ _ _ _ addressable_unheld hosted_informed asks rfl answered_early
    obtain ⟨found, revises⟩ := accepted _ _ serves
    exact ⟨_, stored, answered_early, found, revises, shows⟩
  · have asks : outpaced.pass.pass.Asks outpaced.pass.trace (.addFinalizer unheld) :=
      ⟨_, .call (.start _)⟩
    obtain ⟨_, _, refused, _, mirrors⟩ := no_update_lost reachable_outpaced asks rfl
    obtain ⟨_, stored, serves, shows⟩ :=
      mirrors _ _ _ _ addressable_unheld hosted_outpaced asks rfl answered_late
    obtain ⟨kept, kind, breaks⟩ := refused _ _ serves
    exact ⟨_, _, stored, answered_late, serves, kept, shows, (kind rfl).1, breaks rfl⟩

end Contest
end PreviewControl
