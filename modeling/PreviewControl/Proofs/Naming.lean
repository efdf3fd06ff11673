import PreviewControl.Child.Descriptor
import PreviewControl.Proofs.Separation

/-!
# What can be named

A spec is accepted exactly when every name that is made of it is a host name label, and the first
field that stands in the way of that is the one that a refusal names. The code counts bytes; labels
are counted in characters here, which is the same because they are all of one byte.
-/
namespace PreviewControl

/-! ## Host name labels -/

/-- A lower-case letter from `a` to `z` or a digit. -/
def IsPlain (c : Char) : Prop := 'a' ≤ c ∧ c ≤ 'z' ∨ '0' ≤ c ∧ c ≤ '9'

/-- A label of a host name (RFC 1123): 1 to 63 plain characters and hyphens, and plain ones at both
ends. -/
structure IsLabel (s : String) : Prop where
  chars : ∀ c ∈ s.toList, IsPlain c ∨ c = '-'
  first : ∃ c, s.toList.head? = some c ∧ IsPlain c
  last : ∃ c, s.toList.getLast? = some c ∧ IsPlain c
  bounds : 1 ≤ s.length ∧ s.length ≤ 63

theorem isHostChar_iff {c : Char} : Spec.isHostChar c = true ↔ IsPlain c ∨ c = '-' := by
  simp [Spec.isHostChar, isDigit, IsPlain]

theorem isAlnum_of_isPlain {c : Char} (h : IsPlain c) : Repository.isAlnum c = true := by
  simp only [Repository.isAlnum, isDigit, Bool.or_eq_true, Bool.and_eq_true, decide_eq_true_eq]
  exact h.elim (fun h => .inl (.inl h)) .inr

theorem isPlain_of_isAlnum {c : Char} (host : IsPlain c ∨ c = '-')
    (alnum : Repository.isAlnum c = true) : IsPlain c := by
  refine host.resolve_right ?_
  rintro rfl
  revert alnum
  decide

theorem le_127_of_host {c : Char} (h : IsPlain c ∨ c = '-') : c.val ≤ 127 := by
  rcases h with (⟨_, h⟩ | ⟨_, h⟩) | rfl
  · exact Nat.le_trans h (by decide)
  · exact Nat.le_trans h (by decide)
  · decide

/-- Where all characters are of one byte, bytes and characters are counted alike. -/
theorem utf8ByteSize_eq_length {s : String} (h : ∀ c ∈ s.toList, c.val ≤ 127) :
    s.utf8ByteSize = s.length := by
  have hlist (cs : List Char) (hcs : ∀ c ∈ cs, c.val ≤ 127) :
      (String.ofList cs).utf8ByteSize = cs.length := by
    induction cs with
    | nil => exact String.utf8ByteSize_empty
    | cons c cs ih =>
      obtain ⟨hc, hrest⟩ := List.forall_mem_cons.1 hcs
      rw [String.ofList_cons, String.utf8ByteSize_append, String.utf8ByteSize_singleton, ih hrest,
        Char.utf8Size_eq_one_iff.2 hc, List.length_cons, Nat.add_comm]
  have hs := hlist s.toList h
  rwa [String.ofList_toList, String.length_toList] at hs

theorem isHostLabel_iff {s : String} : Spec.isHostLabel s = true ↔ IsLabel s := by
  simp only [Spec.isHostLabel, Bool.and_eq_true, Option.any_eq_true, List.all_eq_true,
    decide_eq_true_eq, isHostChar_iff]
  constructor
  · rintro ⟨⟨⟨⟨c, hc, hfirst⟩, d, hd, hlast⟩, hsize⟩, hchars⟩
    have hfirst := isPlain_of_isAlnum (hchars c (List.mem_of_head? hc)) hfirst
    have hlast := isPlain_of_isAlnum (hchars d (List.mem_of_getLast? hd)) hlast
    have hlength := utf8ByteSize_eq_length fun c hc => le_127_of_host (hchars c hc)
    have hnonempty : 1 ≤ s.length := by
      rw [← String.length_toList]
      exact List.length_pos_of_mem (List.mem_of_head? hc)
    exact ⟨hchars, ⟨c, hc, hfirst⟩, ⟨d, hd, hlast⟩, hnonempty, hlength ▸ hsize⟩
  · rintro ⟨hchars, ⟨c, hc, hfirst⟩, ⟨d, hd, hlast⟩, _, hsize⟩
    have hlength := utf8ByteSize_eq_length fun c hc => le_127_of_host (hchars c hc)
    exact ⟨⟨⟨⟨c, hc, isAlnum_of_isPlain hfirst⟩, d, hd, isAlnum_of_isPlain hlast⟩,
      hlength ▸ hsize⟩, hchars⟩

/-- A label stays one when it is continued to the front, as long as it fits. -/
theorem IsLabel.prepend {a b : String} (label : IsLabel b)
    (chars : ∀ c ∈ a.toList, IsPlain c ∨ c = '-')
    (first : ∃ c, a.toList.head? = some c ∧ IsPlain c) (fits : (a ++ b).length ≤ 63) :
    IsLabel (a ++ b) := by
  obtain ⟨c, hc, hfirst⟩ := first
  obtain ⟨d, hd, hlast⟩ := label.last
  refine ⟨fun c hc => ?_, ⟨c, ?_, hfirst⟩, ⟨d, ?_, hlast⟩, ?_, fits⟩
  · rw [String.toList_append, List.mem_append] at hc
    exact hc.elim (chars c) (label.chars c)
  · rw [String.toList_append, List.head?_append, hc, Option.some_or]
  · rw [String.toList_append, List.getLast?_append, hd, Option.some_or]
  · have hb := label.bounds.1
    rw [String.length_append]
    omega

/-- Plain characters alone are a label. -/
theorem isLabel_of_plain {s : String} (chars : ∀ c ∈ s.toList, IsPlain c)
    (bounds : 1 ≤ s.length ∧ s.length ≤ 63) : IsLabel s := by
  have hne : s.toList ≠ [] := by
    rw [← List.length_pos_iff, String.length_toList]
    exact bounds.1
  exact ⟨fun c hc => .inl (chars c hc),
    ⟨_, List.head?_eq_some_head hne, chars _ (List.head_mem hne)⟩,
    ⟨_, List.getLast?_eq_some_getLast hne, chars _ (List.getLast_mem hne)⟩, bounds⟩

/-! ## Names of children -/

namespace Child

variable {pr : UInt32}

theorem toList_namePrefix (pr : UInt32) :
    (namePrefix pr).toList = ['p', 'r', '-'] ++ Nat.toDigits 10 pr.toNat ++ ['-'] := by
  simp [namePrefix, String.toList_append]

theorem isPlain_of_mem_toDigits {n : Nat} {c : Char} (h : c ∈ Nat.toDigits 10 n) : IsPlain c := by
  have hdigit := isDigit_of_mem_toDigits h
  simp only [isDigit, Bool.and_eq_true, decide_eq_true_eq] at hdigit
  exact .inr hdigit

/-- A number of 32 bits has at most ten digits. -/
theorem length_toDigits_le (pr : UInt32) : (Nat.toDigits 10 pr.toNat).length ≤ 10 := by
  have hsize := pr.toNat_lt
  rw [Nat.length_toDigits_le_iff (by decide) (by decide)]
  omega

theorem length_namePrefix_le (pr : UInt32) : (namePrefix pr).length ≤ 14 := by
  have hdigits := length_toDigits_le pr
  rw [← String.length_toList, toList_namePrefix]
  simp only [List.length_append, List.length_cons, List.length_nil]
  omega

/-- What is put in front of a label with the number makes a label, if it fits. -/
theorem isLabel_numbered {name : String} (label : IsLabel name)
    (fits : (namePrefix pr ++ name).length ≤ 63) : IsLabel (namePrefix pr ++ name) := by
  refine label.prepend (fun c hc => ?_) ⟨'p', ?_, by unfold IsPlain; decide⟩ fits
  · rw [toList_namePrefix] at hc
    simp only [List.mem_append, List.mem_cons, List.not_mem_nil, or_false] at hc
    rcases hc with ((rfl | rfl | rfl) | hc) | rfl
    · exact .inl (by unfold IsPlain; decide)
    · exact .inl (by unfold IsPlain; decide)
    · exact .inr rfl
    · exact .inl (isPlain_of_mem_toDigits hc)
    · exact .inr rfl
  · rw [toList_namePrefix]
    rfl

theorem isLabel_shortHash (s : Spec) : IsLabel s.shortHash ∧ s.shortHash.length = 6 := by
  have hlist : s.shortHash.toList = (Sha256.hex s.namespaceKey.toUTF8.toList).take 6 := by
    simp [Spec.shortHash, Sha256.ofText]
  have hlength : s.shortHash.length = 6 := by
    rw [← String.length_toList, hlist, List.length_take, Sha256.length_hex]
    rfl
  refine ⟨isLabel_of_plain (fun c hc => ?_) (by omega), hlength⟩
  rw [hlist] at hc
  rcases Sha256.mem_hex (List.mem_of_mem_take hc) with hdigit | ⟨ha, hf⟩
  · exact .inr hdigit
  · exact .inl ⟨ha, Nat.le_trans hf (by decide)⟩

theorem isLabel_namespaceName (s : Spec) : IsLabel s.namespaceName := by
  obtain ⟨hlabel, hlength⟩ := isLabel_shortHash s
  have hprefix := length_namePrefix_le s.prNumber
  have hfits : (namePrefix s.prNumber ++ s.shortHash).length ≤ 63 := by
    rw [String.length_append]
    omega
  exact isLabel_numbered hlabel hfits

theorem isLabel_tlsSecretName (pr : UInt32) : IsLabel (tlsSecretName pr) := by
  have hname : tlsSecretName pr = namePrefix pr ++ "tls" := by
    rw [← String.toList_inj]
    simp [tlsSecretName, namePrefix, String.toList_append]
  have hlabel : IsLabel "tls" := isHostLabel_iff.1 (by decide)
  have hword : "tls".length = 3 := rfl
  have hprefix := length_namePrefix_le pr
  rw [hname]
  refine isLabel_numbered hlabel ?_
  rw [String.length_append]
  omega

theorem length_number (pr : UInt32) :
    1 ≤ (toString pr.toNat).length ∧ (toString pr.toNat).length ≤ 10 := by
  rw [← String.length_toList, Spec.toList_toString]
  exact ⟨Nat.length_toDigits_pos, length_toDigits_le pr⟩

theorem isLabel_number (pr : UInt32) : IsLabel (toString pr.toNat) := by
  have hlength := length_number pr
  refine isLabel_of_plain (fun c hc => ?_) (by omega)
  rw [Spec.toList_toString] at hc
  exact isPlain_of_mem_toDigits hc

theorem isLabel_applicationSetName (pr : UInt32) : IsLabel (applicationSetName pr) := by
  have hlength := length_number pr
  have hfirst : ∃ c, "preview-".toList.head? = some c ∧ IsPlain c :=
    ⟨'p', rfl, by unfold IsPlain; decide⟩
  refine (isLabel_number pr).prepend (fun c hc => isHostChar_iff.1 ?_) hfirst ?_
  · have hall : "preview-".toList.all Spec.isHostChar = true := by decide
    exact List.all_eq_true.1 hall c hc
  · have hword : "preview-".length = 8 := rfl
    rw [String.length_append]
    omega

theorem applicationName_inj {m n : UInt32} {a b : String} :
    applicationName m a = applicationName n b ↔ m = n ∧ a = b := by
  constructor
  · intro h
    have hlist := congrArg String.toList h
    have happ (pr : UInt32) (service : String) : (applicationName pr service).toList =
        ['p', 'r', '-'] ++ (Nat.toDigits 10 pr.toNat ++ '-' :: service.toList) := by
      simp [applicationName, Spec.serviceName, String.toList_append]
    rw [happ, happ] at hlist
    obtain ⟨hnumber, hservice⟩ := Spec.digits_hyphen_inj (List.append_cancel_left hlist)
    exact ⟨UInt32.toNat_inj.1 hnumber, String.toList_inj.1 hservice⟩
  · rintro ⟨rfl, rfl⟩
    rfl

end Child

/-! ## Fields that can be acted on -/

namespace Spec

variable {s : Spec} {service text : String}

/-- The fields that are checked. -/
inductive Field where
  | number
  | commit
  | repository
  | services
deriving DecidableEq

namespace Field

/-- The fields in the order in which they are checked. -/
def all : List Field := [number, commit, repository, services]

def path : Field → String
  | number => "spec.prNumber"
  | commit => "spec.headSha"
  | repository => "spec.repository"
  | services => "spec.services"

end Field

/-- The service is a label, and so can be the name of its deployment. -/
structure Names (s : Spec) (service : String) : Prop where
  label : IsLabel service
  fits : (Child.applicationName s.prNumber service).length ≤ 63

/-- A field can be acted on. -/
def Meets (s : Spec) : Field → Prop
  | .number => 1 ≤ s.prNumber.toNat
  | .commit => s.headSha.length = 40 ∧ ∀ c ∈ s.headSha.toList,
      '0' ≤ c ∧ c ≤ '9' ∨ 'a' ≤ c ∧ c ≤ 'f' ∨ 'A' ≤ c ∧ c ≤ 'F'
  | .repository => s.repository.owner ≠ "" ∧ s.repository.name ≠ ""
  | .services => ∀ service ∈ s.services, s.Names service

/-- The text of a refusal because of a field; that of the services is about the first bad one. -/
def Words (s : Spec) (text : String) : Field → Prop
  | .number => text = "pull request number must be at least 1"
  | .commit => text = "head commit must be 40 hex characters"
  | .repository => text = "repository owner and name are required"
  | .services => ∃ before service after, s.services = before ++ service :: after ∧
      (∀ earlier ∈ before, s.Names earlier) ∧ ¬s.Names service ∧
      text = serviceMessage s.prNumber service

/-- This is the first field that cannot be acted on, and the text says so. -/
structure Refused (s : Spec) (field : Field) (text : String) : Prop where
  earlier : ∀ f ∈ Field.all.takeWhile (· != field), s.Meets f
  unmet : ¬s.Meets field
  worded : s.Words text field

theorem isServiceNameable_iff : isServiceNameable s.prNumber service = true ↔ s.Names service := by
  have hsize (label : IsLabel service) : (serviceName s.prNumber service).utf8ByteSize =
      (Child.applicationName s.prNumber service).length := by
    refine utf8ByteSize_eq_length fun c hc => ?_
    have hname : serviceName s.prNumber service = Child.namePrefix s.prNumber ++ service := rfl
    rw [hname, String.toList_append, Child.toList_namePrefix] at hc
    simp only [List.mem_append, List.mem_cons, List.not_mem_nil, or_false] at hc
    rcases hc with (((rfl | rfl | rfl) | hc) | rfl) | hc
    · decide
    · decide
    · decide
    · exact le_127_of_host (.inl (Child.isPlain_of_mem_toDigits hc))
    · decide
    · exact le_127_of_host (label.chars c hc)
  rw [isServiceNameable, Bool.and_eq_true, isHostLabel_iff, decide_eq_true_eq]
  constructor
  · intro ⟨label, fits⟩
    exact ⟨label, hsize label ▸ fits⟩
  · intro ⟨label, fits⟩
    exact ⟨label, (hsize label).symm ▸ fits⟩

theorem isHexDigit_iff {c : Char} : isHexDigit c = true ↔
    '0' ≤ c ∧ c ≤ '9' ∨ 'a' ≤ c ∧ c ≤ 'f' ∨ 'A' ≤ c ∧ c ≤ 'F' := by
  simp [isHexDigit, isDigit, or_assoc]

theorem meets_number : s.Meets .number ↔ s.prNumber ≠ 0 := by
  rw [Meets, Ne, ← UInt32.toNat_inj]
  exact Nat.pos_iff_ne_zero

theorem meets_commit : s.Meets .commit ↔
    ¬(s.headSha.utf8ByteSize ≠ hashLength ∨ !s.headSha.toList.all isHexDigit) := by
  have hall : s.headSha.toList.all isHexDigit = true ↔ ∀ c ∈ s.headSha.toList,
      '0' ≤ c ∧ c ≤ '9' ∨ 'a' ≤ c ∧ c ≤ 'f' ∨ 'A' ≤ c ∧ c ≤ 'F' := by
    simp only [List.all_eq_true, isHexDigit_iff]
  have hbytes : s.headSha.toList.all isHexDigit = true →
      s.headSha.utf8ByteSize = s.headSha.length := by
    intro h
    refine utf8ByteSize_eq_length fun c hc => ?_
    rcases hall.1 h c hc with ⟨_, hle⟩ | ⟨_, hle⟩ | ⟨_, hle⟩
    all_goals exact Nat.le_trans hle (by decide)
  rw [Meets, ← hall, not_or, not_not, Bool.not_eq_true', Bool.not_eq_false]
  constructor
  · intro ⟨hlength, hhex⟩
    exact ⟨(hbytes hhex).trans hlength, hhex⟩
  · intro ⟨hsize, hhex⟩
    exact ⟨(hbytes hhex).symm.trans hsize, hhex⟩

theorem meets_repository :
    s.Meets .repository ↔ ¬(s.repository.owner = "" ∨ s.repository.name = "") := by
  rw [Meets, not_or]

/-- The services are searched for the first that cannot be named. -/
theorem find?_eq_some_iff_words :
    (∃ service, s.services.find? (!isServiceNameable s.prNumber ·) = some service ∧
      text = serviceMessage s.prNumber service) ↔ s.Words text .services := by
  simp only [List.find?_eq_some_iff_append, Words, Bool.not_eq_true', Bool.not_not,
    Bool.eq_false_iff, Ne, isServiceNameable_iff]
  constructor
  · rintro ⟨service, ⟨hbad, before, after, hall, hbefore⟩, htext⟩
    exact ⟨before, service, after, hall, hbefore, hbad, htext⟩
  · rintro ⟨before, service, after, hall, hbefore, hbad, htext⟩
    exact ⟨service, ⟨hbad, before, after, hall, hbefore⟩, htext⟩

theorem Field.earlier_or_later (f g : Field) :
    f = g ∨ f ∈ all.takeWhile (· != g) ∨ g ∈ all.takeWhile (· != f) := by
  cases f <;> cases g <;> decide

/-- There is but one field because of which a spec is refused. -/
theorem refused_iff_of_first {field first : Field}
    (earlier : ∀ f ∈ Field.all.takeWhile (· != first), s.Meets f) (unmet : ¬s.Meets first) :
    s.Refused field text ↔ field = first ∧ s.Words text first := by
  constructor
  · intro h
    rcases field.earlier_or_later first with rfl | hearlier | hlater
    · exact ⟨rfl, h.worded⟩
    · exact absurd (earlier field hearlier) h.unmet
    · exact absurd (h.earlier first hlater) unmet
  · rintro ⟨rfl, worded⟩
    exact ⟨earlier, unmet, worded⟩

theorem Refused.unique {f g : Field} {text' : String} (h : s.Refused f text)
    (h' : s.Refused g text') : f = g ∧ text = text' := by
  obtain ⟨rfl, worded⟩ := (refused_iff_of_first h.earlier h.unmet).1 h'
  refine ⟨rfl, ?_⟩
  have hworded := h.worded
  cases g with
  | number | commit | repository => exact hworded.trans worded.symm
  | services =>
    obtain ⟨service, hfind, rfl⟩ := find?_eq_some_iff_words.2 hworded
    obtain ⟨service', hfind', rfl⟩ := find?_eq_some_iff_words.2 worded
    obtain rfl := Option.some.inj (hfind.symm.trans hfind')
    rfl

/-- The checks come to the first field that cannot be acted on, or to the end. -/
theorem fault?_spec (s : Spec) :
    (∃ field text, s.fault? = some (field.path, text) ∧ s.Refused field text) ∨
      s.fault? = none ∧ ∀ field, s.Meets field := by
  unfold fault?
  by_cases hnumber : s.prNumber = 0
  · rw [if_pos hnumber]
    exact .inl ⟨.number, _, rfl, nofun, fun h => meets_number.1 h hnumber, rfl⟩
  have number := meets_number.2 hnumber
  rw [if_neg hnumber]
  by_cases hcommit : s.headSha.utf8ByteSize ≠ hashLength ∨ !s.headSha.toList.all isHexDigit
  · rw [if_pos hcommit]
    have earlier : ∀ f ∈ [Field.number], s.Meets f := by simpa using number
    exact .inl ⟨.commit, _, rfl, earlier, fun h => meets_commit.1 h hcommit, rfl⟩
  have commit := meets_commit.2 hcommit
  rw [if_neg hcommit]
  by_cases hrepository : s.repository.owner = "" ∨ s.repository.name = ""
  · rw [if_pos hrepository]
    have earlier : ∀ f ∈ [Field.number, .commit], s.Meets f := by simpa using ⟨number, commit⟩
    exact .inl ⟨.repository, _, rfl, earlier, fun h => meets_repository.1 h hrepository, rfl⟩
  have repository := meets_repository.2 hrepository
  rw [if_neg hrepository]
  cases hfind : s.services.find? (!isServiceNameable s.prNumber ·) with
  | some service =>
    have worded := find?_eq_some_iff_words.1 ⟨service, hfind, rfl⟩
    have earlier : ∀ f ∈ [Field.number, .commit, .repository], s.Meets f := by
      simpa using ⟨number, commit, repository⟩
    refine .inl ⟨.services, _, rfl, earlier, fun h => ?_, worded⟩
    obtain ⟨before, bad, after, hall, _, hbad, _⟩ := worded
    exact hbad (h bad (by simp [hall]))
  | none =>
    have services : s.Meets .services := by
      intro service hservice
      have hgood := List.find?_eq_none.1 hfind service hservice
      exact isServiceNameable_iff.1 (by simpa using hgood)
    refine .inr ⟨rfl, fun field => ?_⟩
    cases field with
    | number => exact number
    | commit => exact commit
    | repository => exact repository
    | services => exact services

theorem fault?_eq_none_iff : s.fault? = none ↔ ∀ field, s.Meets field := by
  rcases s.fault?_spec with ⟨field, text, hfault, refused⟩ | ⟨hfault, hall⟩
  · rw [hfault]
    exact iff_of_false nofun fun hall => refused.unmet (hall field)
  · exact iff_of_true hfault hall

theorem fault?_eq_some_iff {path : String} :
    s.fault? = some (path, text) ↔ ∃ field, s.Refused field text ∧ path = field.path := by
  rcases s.fault?_spec with ⟨field, text', hfault, refused⟩ | ⟨hfault, hall⟩
  · rw [hfault, Option.some.injEq, Prod.mk.injEq]
    constructor
    · rintro ⟨rfl, rfl⟩
      exact ⟨field, refused, rfl⟩
    · rintro ⟨field', refused', rfl⟩
      obtain ⟨rfl, rfl⟩ := refused.unique refused'
      exact ⟨rfl, rfl⟩
  · rw [hfault]
    exact iff_of_false nofun fun ⟨field, refused, _⟩ => refused.unmet (hall field)

theorem validate_eq_ok_iff {record : String} :
    s.validate record = .ok () ↔ ∀ field, s.Meets field := by
  rw [← fault?_eq_none_iff, validate]
  cases s.fault? <;> simp

/-- A spec is accepted if and only if its number is at least one, its commit is forty hexadecimal
digits, its repository has an owner and a name, and every service is a label and leaves room for the
number in front of it. Else the refusal names the first field for which this is not so. The names of
the children of an accepted spec are labels, all of them, and number and service can be told from
the name of a deployment. -/
theorem accepted_iff_nameable (s : Spec) (record : String) :
    (s.validate record = .ok () ↔ ∀ field, s.Meets field) ∧
    (∀ e, s.validate record = .error e ↔
      ∃ field text, s.Refused field text ∧ e = .invalid record (some field.path) text) ∧
    (s.validate record = .ok () →
      IsLabel s.namespaceName ∧ IsLabel (Child.applicationSetName s.prNumber) ∧
        IsLabel (Child.tlsSecretName s.prNumber) ∧
        ∀ service ∈ s.services, IsLabel (Child.applicationName s.prNumber service) ∧
          IsLabel (Child.backendName s.prNumber service)) ∧
    ∀ (m n : UInt32) (a b : String),
      Child.applicationName m a = Child.applicationName n b ↔ m = n ∧ a = b := by
  refine ⟨validate_eq_ok_iff, fun e => ?_, fun h => ?_, fun m n a b => Child.applicationName_inj⟩
  · have hfault : s.validate record = .error e ↔
        ∃ path text, s.fault? = some (path, text) ∧ e = .invalid record (some path) text := by
      rw [validate]
      cases s.fault? with
      | none => simp
      | some fault =>
        obtain ⟨path, text⟩ := fault
        simp [eq_comm]
    simp only [hfault, fault?_eq_some_iff]
    constructor
    · rintro ⟨_, text, ⟨field, refused, rfl⟩, rfl⟩
      exact ⟨field, text, refused, rfl⟩
    · rintro ⟨field, text, refused, rfl⟩
      exact ⟨_, text, ⟨field, refused, rfl⟩, rfl⟩
  · refine ⟨Child.isLabel_namespaceName s, Child.isLabel_applicationSetName _,
      Child.isLabel_tlsSecretName _, fun service hservice => ?_⟩
    obtain ⟨label, fits⟩ := validate_eq_ok_iff.1 h .services service hservice
    have hname : IsLabel (Child.applicationName s.prNumber service) :=
      Child.isLabel_numbered label fits
    exact ⟨hname, hname⟩

/-- The largest pull request, with the longest service that it can have. -/
def largest : Spec :=
  { repository := ⟨"acme", "shop", none⟩, prNumber := 4294967295,
    headSha := "0123456789abcdefABCDEF789abcdef012345678",
    services := ["a-service-with-the-longest-name-that-still-leaves"], ttl := "" }

theorem accepted_iff_nameable_largest :
    largest.validate "pr" = .ok () ∧ IsLabel largest.namespaceName ∧
      (Child.backendName largest.prNumber
        "a-service-with-the-longest-name-that-still-leaves").length = 63 ∧
      IsLabel (Child.backendName largest.prNumber
        "a-service-with-the-longest-name-that-still-leaves") := by
  have accepted : largest.validate "pr" = .ok () := by decide +kernel
  obtain ⟨space, _, _, names⟩ := (accepted_iff_nameable largest "pr").2.2.1 accepted
  exact ⟨accepted, space, by decide +kernel, (names _ List.mem_cons_self).2⟩

end Spec
end PreviewControl
