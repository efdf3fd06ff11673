import Mathlib.Data.List.TakeWhile
import PreviewControl.Proofs.Hosting

/-!
# What the client asks of a host

The requests of the client about a record, as a server that hosts the record sees them, and what the
client reads from the answers.
-/
namespace PreviewControl

open Http (Request Exchange Target)

/-! ## Targets -/

namespace Http.Target

variable {stop : Char → Bool} {cs : List Char} {path query : String}

theorem cut_of_forall (h : ∀ c ∈ cs, stop c = false) : cut stop cs = (cs, []) := by
  have hgo : ∀ c ∈ cs, (!stop c) = true := fun c hc => by rw [h c hc]; rfl
  rw [cut, List.takeWhile_eq_self_iff.2 hgo, List.dropWhile_eq_nil_iff.2 hgo]
  rfl

theorem cut_append (h : ∀ c ∈ cs, stop c = false) {s : Char} (hs : stop s = true)
    (rest : List Char) : cut stop (cs ++ s :: rest) = (cs, rest) := by
  have hgo : ∀ c ∈ cs, (!stop c) = true := fun c hc => by rw [h c hc]; rfl
  rw [cut, List.takeWhile_append_of_pos hgo, List.dropWhile_append_of_pos hgo]
  simp [hs]

private theorem not_stop_of_isPathChar {c : Char} (h : isPathChar c = true) :
    (c == '#') = false ∧ (c == '?') = false := by
  constructor <;> refine beq_eq_false_iff_ne.2 ?_ <;> rintro rfl <;> cases h

private theorem not_hash_of_isQueryChar {c : Char} (h : isQueryChar c = true) :
    (c == '#') = false := by
  refine beq_eq_false_iff_ne.2 ?_
  rintro rfl
  cases h

/-- A path that needs no escape is read back from a target, without the query behind it. -/
theorem ofText_withQuery (hpath : path.toList.all isPathChar = true)
    (hquery : query.toList.all isQueryChar = true)
    (fits : (path ++ "?" ++ query).utf8ByteSize ≤ maxBytes) :
    ofText (path ++ "?" ++ query) = .ok ⟨path, pairs query.toList⟩ := by
  have hpath' := List.all_eq_true.1 hpath
  have hquery' := List.all_eq_true.1 hquery
  have hchars : (path ++ "?" ++ query).toList = path.toList ++ '?' :: query.toList := by
    simp
  have hwhole : cut (· == '#') (path.toList ++ '?' :: query.toList) =
      (path.toList ++ '?' :: query.toList, []) := by
    refine cut_of_forall fun c hc => ?_
    rcases List.mem_append.1 hc with hc | hc
    · exact (not_stop_of_isPathChar (hpath' c hc)).1
    · rcases List.mem_cons.1 hc with rfl | hc
      · rfl
      · exact not_hash_of_isQueryChar (hquery' c hc)
  have hparts : cut (· == '?') (path.toList ++ '?' :: query.toList) =
      (path.toList, query.toList) :=
    cut_append (fun c hc => (not_stop_of_isPathChar (hpath' c hc)).2) rfl _
  rw [ofText, hchars, hwhole]
  simp only [hparts, if_neg (Nat.not_lt.2 fits), hpath, hquery, Bool.and_self, if_true,
    String.ofList_toList]

/-- So is a path without a query. -/
theorem ofText_path (hpath : path.toList.all isPathChar = true)
    (fits : path.utf8ByteSize ≤ maxBytes) : ofText path = .ok ⟨path, []⟩ := by
  have hpath' := List.all_eq_true.1 hpath
  have hwhole : cut (· == '#') path.toList = (path.toList, []) :=
    cut_of_forall fun c hc => (not_stop_of_isPathChar (hpath' c hc)).1
  have hpart : cut (· == '?') path.toList = (path.toList, []) :=
    cut_of_forall fun c hc => (not_stop_of_isPathChar (hpath' c hc)).2
  rw [ofText, hwhole]
  simp only [hpart, if_neg (Nat.not_lt.2 fits), hpath, String.ofList_toList, List.all_nil,
    Bool.and_self, if_true]
  rfl

end Http.Target

/-- A key that can stand in a path as it is, as the names of objects can, which are not long. -/
structure RecordKey.Addressable (key : RecordKey) : Prop where
  named : key.name ≠ ""
  name : key.name.toList.all Target.isPathChar = true
  ns : key.ns.toList.all Target.isPathChar = true
  nameSize : key.name.utf8ByteSize ≤ 253
  nsSize : key.ns.utf8ByteSize ≤ 253

namespace Host

/-! ## Requests about the record -/

variable {host host' : Host} {env : Environment} {part : Part} {document : Json}

private theorem collection_environment (ns : String) : Http.collection .environment (some ns) =
    "/apis/preview.dev/v1alpha1/" ++ ("namespaces/" ++ ns ++ "/") ++ "previewenvironments" := by
  have hkind : ResourceKind.environment = ⟨"preview.dev", "v1alpha1", "preview.dev/v1alpha1",
      "PreviewEnvironment", "previewenvironments"⟩ := by decide +kernel
  rw [hkind]
  rfl

theorem isPathChar_path (h : host.key.Addressable) (part : Part) :
    (host.path ++ part.suffix).toList.all Target.isPathChar = true := by
  have hroot : "/apis/preview.dev/v1alpha1/".toList.all Target.isPathChar = true := by decide
  have hspace : "namespaces/".toList.all Target.isPathChar = true := by decide
  have hplural : "previewenvironments".toList.all Target.isPathChar = true := by decide
  have hslash : "/".toList.all Target.isPathChar = true := by decide
  have hsuffix : part.suffix.toList.all Target.isPathChar = true := by cases part <;> decide
  rw [path, collection_environment]
  simp only [String.toList_append, List.all_append, hroot, hspace, h.ns, hslash, hplural, h.name,
    hsuffix, Bool.and_self]

theorem size_path (h : host.key.Addressable) (part : Part) :
    (host.path ++ part.suffix).utf8ByteSize ≤ 600 := by
  have hname := h.nameSize
  have hns := h.nsSize
  have hroot : "/apis/preview.dev/v1alpha1/".utf8ByteSize = 27 := by decide
  have hspace : "namespaces/".utf8ByteSize = 11 := by decide
  have hplural : "previewenvironments".utf8ByteSize = 19 := by decide
  have hslash : "/".utf8ByteSize = 1 := by decide
  have hsuffix : part.suffix.utf8ByteSize ≤ 7 := by cases part <;> decide
  rw [path, collection_environment]
  simp only [String.utf8ByteSize_append, hroot, hspace, hplural, hslash]
  omega

theorem part?_path (part : Part) : host.part? (host.path ++ part.suffix) = some part := by
  cases part with
  | record => rw [part?, Part.suffix, String.append_empty, if_pos rfl]
  | status =>
    have hne : host.path ++ "/status" ≠ host.path := fun h => by
      have hsize := congrArg String.utf8ByteSize h
      rw [String.utf8ByteSize_append] at hsize
      have hsuffix : "/status".utf8ByteSize = 7 := by decide
      omega
    rw [part?, Part.suffix, if_neg hne, if_pos rfl]

/-- A patch of the record, or of its status, goes to the path under which that is served. -/
theorem recordPatch_eq (h : host.key.Addressable) (about : env.key = host.key) (part : Part)
    {query : List (String × String)} (hquery : query = [] ∨ query = Http.inName) (patch : Json) :
    ∃ pairs, Http.recordPatch env part.suffix query patch =
      .ok ⟨.patch, ⟨host.path ++ part.suffix, pairs⟩, some Http.mergePatch, some patch⟩ := by
  have hname : env.name ≠ "" := by
    have hnamed := h.named
    rwa [← about] at hnamed
  have hpath : Http.collection .environment (some (env.metadata.ns.getD "")) ++ "/" ++ env.name =
      host.path := by
    rw [path, ← about]
    rfl
  have htext : (String.join (query.map fun q => "&" ++ q.1 ++ "=" ++ q.2)).toList.all
      Target.isQueryChar = true := by
    rcases hquery with rfl | rfl <;> decide
  have hsize : (String.join (query.map fun q => "&" ++ q.1 ++ "=" ++ q.2)).utf8ByteSize ≤ 100 := by
    rcases hquery with rfl | rfl <;> decide
  generalize hjoined : String.join (query.map fun q => "&" ++ q.1 ++ "=" ++ q.2) = text
    at htext hsize
  have fits : (host.path ++ part.suffix ++ "?" ++ text).utf8ByteSize ≤ Target.maxBytes := by
    have hpathSize := size_path h part
    have hmark : "?".utf8ByteSize = 1 := by decide
    rw [String.utf8ByteSize_append, String.utf8ByteSize_append, hmark, Target.maxBytes]
    omega
  refine ⟨Target.pairs text.toList, ?_⟩
  have htarget := Target.ofText_withQuery (isPathChar_path h part) htext fits
  rw [Http.recordPatch, Http.objectRequest]
  simp only [hpath, if_neg hname, reduceCtorEq, if_false, Http.request, Http.withQuery, hjoined,
    htarget]
  rfl

theorem respond_patch (pairs : List (String × String)) {changes : List (String × Json)} :
    host.respond ⟨.patch, ⟨host.path ++ part.suffix, pairs⟩, some Http.mergePatch,
      some (.obj changes)⟩ = host.merge part (.obj changes) := by
  rw [respond]
  simp only [part?_path, if_true]

/-- A read of the record goes to its path. -/
theorem objectRequest_eq (h : host.key.Addressable) :
    Http.objectRequest .get .environment (some host.key.ns) host.key.name "" [] none =
      .ok ⟨.get, ⟨host.path, []⟩, none, none⟩ := by
  have hpath : Http.collection .environment (some host.key.ns) ++ "/" ++ host.key.name ++ "" =
      host.path := by rw [String.append_empty, path]
  have hchars := isPathChar_path h .record
  have hsize := size_path h .record
  rw [Part.suffix, String.append_empty] at hchars hsize
  have htarget := Target.ofText_path hchars (hsize.trans (by decide))
  rw [Http.objectRequest]
  simp only [hpath, if_neg h.named, if_true, Http.request, htarget]
  rfl

theorem respond_get : host.respond ⟨.get, ⟨host.path, []⟩, none, none⟩ = host.read := by
  have hpart : host.part? host.path = some .record := if_pos rfl
  rw [respond]
  simp only [hpart]

/-! ## Reading the answers -/

section

variable {α : Type} {r : Request} {read : Exchange → Except Failure α} {answer : Except Failure α}

theorem sendThen_iff : Http.sendThen send (.ok r) read host answer host' ↔
    ∃ e, send r host e host' ∧ answer = read e := by
  constructor
  · rintro ⟨e, _, hsend, hanswer, rfl⟩
    exact ⟨e, hsend, hanswer⟩
  · rintro ⟨e, hsend, hanswer⟩
    exact ⟨e, host', hsend, hanswer, rfl⟩

end

variable {α : Type} {read : Json → Option α} {a : α} {code : Nat} {reason message text : String}
  {body : Json}

theorem textOf_spelled (code : Nat) (text : String) :
    Http.textOf (.ok ⟨code, text.toUTF8.data.toList⟩) =
      if Http.isErrorStatus code then .error (Http.failureOf code text) else .ok text := by
  have hread : String.fromUTF8? ⟨text.toUTF8.data.toList.toArray⟩ = some text := by
    rw [Array.toArray_toList]
    exact dif_pos text.isValidUTF8
  simp only [Http.textOf, hread]

/-- What is shown in an accepted answer is read from it. -/
theorem valueOf_accepted (spelled : Json.scan? text = some body) (reads : read body = some a) :
    Http.valueOf (.ok ⟨200, text.toUTF8.data.toList⟩) read = .ok a := by
  have htext : Http.textOf (.ok ⟨200, text.toUTF8.data.toList⟩) = .ok text :=
    textOf_spelled 200 text
  rw [Http.valueOf, htext]
  show Http.valueIn read Http.jsonFault? text = .ok a
  rw [Http.valueIn, spelled, Option.bind_some, reads]

theorem failureOf_fault (fits : FitsUnsigned 16 (code : Int))
    (spelled : Json.scan? text = some (fault code reason message)) :
    Http.failureOf code text = .rejected code reason message := by
  let fields := [("apiVersion", Json.str "v1"), ("kind", .str "Status"), ("metadata", .obj []),
    ("status", .str "Failure"), ("message", .str message), ("reason", .str reason),
    ("code", .int code)]
  have hmembers : (fault code reason message).members? ["status", "message", "reason", "code"] =
      some fields := rfl
  have hstatus : Json.field fields "status" Json.text? = some "Failure" := rfl
  have hmessage : Json.defaulted fields "message" Json.text? "" = some message := rfl
  have hreason : Json.defaulted fields "reason" Json.text? "" = some reason := rfl
  have hcode : Json.field fields "code" Json.int? = some (code : Int) := rfl
  have hdescribed : ((Json.scan? text).bind fun j => do
      let fs ← j.members? ["status", "message", "reason", "code"]
      let status ← Json.field fs "status" Json.text?
      let message ← Json.defaulted fs "message" Json.text? ""
      let reason ← Json.defaulted fs "reason" Json.text? ""
      let n ← Json.field fs "code" Json.int?
      if FitsUnsigned 16 n then some (ApiStatus.mk status message reason n.toNat) else none) =
        some ⟨"Failure", message, reason, code⟩ := by
    refine Option.bind_eq_some_iff.2 ⟨_, spelled, ?_⟩
    refine Option.bind_eq_some_iff.2 ⟨_, hmembers, ?_⟩
    refine Option.bind_eq_some_iff.2 ⟨_, hstatus, ?_⟩
    refine Option.bind_eq_some_iff.2 ⟨_, hmessage, ?_⟩
    refine Option.bind_eq_some_iff.2 ⟨_, hreason, ?_⟩
    refine Option.bind_eq_some_iff.2 ⟨_, hcode, ?_⟩
    rw [if_pos fits]
    rfl
  rw [Http.failureOf, hdescribed]
  rfl

/-- A refusal is read as what it says. -/
theorem valueOf_fault (refused : Http.isErrorStatus code = true)
    (fits : FitsUnsigned 16 (code : Int))
    (spelled : Json.scan? text = some (fault code reason message)) :
    Http.valueOf (.ok ⟨code, text.toUTF8.data.toList⟩) read =
      .error (.rejected code reason message) := by
  rw [Http.valueOf, textOf_spelled, if_pos refused, failureOf_fault fits spelled]
  rfl

/-! ## Patches and their answers -/

variable {old : Environment} {query : List (String × String)} {changes : List (String × Json)}

/-- What is sent as a patch of the record is answered as such a patch. -/
theorem sendThen_patch_iff {α : Type} {read : Exchange → Except Failure α}
    {answer : Except Failure α} (addressable : host.key.Addressable) (about : old.key = host.key)
    (part : Part) (hquery : query = [] ∨ query = Http.inName) :
    Http.sendThen send (Http.recordPatch old part.suffix query (.obj changes)) read host answer
      host' ↔ host'.key = host.key ∧
        host'.document = (host.merge part (.obj changes)).document ∧
        ∃ text, Json.scan? text = some (host.merge part (.obj changes)).body ∧
          answer = read (.ok ⟨(host.merge part (.obj changes)).code, text.toUTF8.data.toList⟩) := by
  obtain ⟨pairs, hrequest⟩ := recordPatch_eq addressable about part hquery (.obj changes)
  rw [hrequest, sendThen_iff, ← respond_patch pairs]
  constructor
  · rintro ⟨_, ⟨text, spelled, rfl, hkey, hdocument⟩, hanswer⟩
    exact ⟨hkey, hdocument, text, spelled, hanswer⟩
  · rintro ⟨hkey, hdocument, text, spelled, hanswer⟩
    exact ⟨_, ⟨text, spelled, rfl, hkey, hdocument⟩, hanswer⟩

end Host
end PreviewControl
