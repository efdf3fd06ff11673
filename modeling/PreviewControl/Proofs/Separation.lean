import PreviewControl.Proofs.CreationGuard
import PreviewControl.Proofs.Placement
import PreviewControl.Proofs.Provenance
import PreviewControl.Proofs.TimeText

/-!
# Which objects two records share

The objects that passes over a record put in place or remove, and those of them that passes over
another record change as well. The namespaces of different pull requests are kept apart by a hash of
the repository; the descriptors, which live side by side, are told apart by the number alone.
-/
namespace PreviewControl

open Pass Reconcile

/-! ## Names and the specs that they are made from -/

namespace Spec

variable {s s' : Spec}

/-- The digits of the hash in the name of the namespace. -/
def shortHash (s : Spec) : String := String.ofList ((Sha256.ofText s.namespaceKey).toList.take 6)

theorem toList_toString (n : Nat) : (toString n).toList = Nat.toDigits 10 n := by
  show (Nat.repr n).toList = _
  rw [Nat.repr, String.toList_ofList]

theorem toList_namespaceName (s : Spec) : s.namespaceName.toList =
    ['p', 'r', '-'] ++ (Nat.toDigits 10 s.prNumber.toNat ++ '-' :: s.shortHash.toList) := by
  simp [namespaceName, shortHash, String.toList_append]

theorem toDigits_inj {m n : Nat} (h : Nat.toDigits 10 m = Nat.toDigits 10 n) : m = n := by
  rw [← digitsValue_toDigits m, h, digitsValue_toDigits]

/-- A number is known from the text that goes on after it with a hyphen. -/
theorem digits_hyphen_inj {m n : Nat} {rest rest' : List Char}
    (h : Nat.toDigits 10 m ++ '-' :: rest = Nat.toDigits 10 n ++ '-' :: rest') :
    m = n ∧ rest = rest' := by
  have hends (rest : List Char) : Time.EndsNumber ('-' :: rest) := Time.endsNumber_cons (by decide)
  have hdigits (n : Nat) : ∀ c ∈ Nat.toDigits 10 n, isDigit c = true :=
    fun _ => isDigit_of_mem_toDigits
  have htake := congrArg (List.takeWhile isDigit) h
  rw [Time.takeWhile_isDigit (hdigits m) (hends rest),
    Time.takeWhile_isDigit (hdigits n) (hends rest')] at htake
  obtain rfl := toDigits_inj htake
  exact ⟨rfl, (List.cons.inj (List.append_cancel_left h)).2⟩

/-- Where the hashes of different keys differ, the namespace tells number and repository. -/
theorem namespaceName_eq_iff
    (apart : s.namespaceKey ≠ s'.namespaceKey → s.shortHash ≠ s'.shortHash) :
    s.namespaceName = s'.namespaceName ↔
      s.prNumber = s'.prNumber ∧ s.repository.fullName = s'.repository.fullName := by
  constructor
  · intro h
    have hlist := congrArg String.toList h
    rw [toList_namespaceName, toList_namespaceName] at hlist
    obtain ⟨hnumber, hhash⟩ := digits_hyphen_inj (List.append_cancel_left hlist)
    have hkey : s.namespaceKey = s'.namespaceKey :=
      Decidable.of_not_not fun hne => apart hne (String.toList_inj.1 hhash)
    refine ⟨UInt32.toNat_inj.1 hnumber, String.toList_inj.1 ?_⟩
    have hkey := congrArg String.toList hkey
    simp only [namespaceKey, String.toList_append, hnumber] at hkey
    exact List.append_cancel_right (List.append_cancel_right hkey)
  · rintro ⟨hnumber, hname⟩
    rw [namespaceName, namespaceName, namespaceKey, namespaceKey, hnumber, hname]

end Spec

namespace Child

theorem applicationSetName_inj {m n : UInt32} (h : applicationSetName m = applicationSetName n) :
    m = n := by
  have hlist := congrArg String.toList h
  simp only [applicationSetName, String.toList_append, Spec.toList_toString] at hlist
  exact UInt32.toNat_inj.1 (Spec.toDigits_inj (List.append_cancel_left hlist))

end Child

/-! ## What passes over a record change -/

/-- The object that a call puts in place or removes. -/
def Call.changes? : Call → Option Address
  | apply m => some m.target
  | deleteObject target => some target
  | _ => none

/-- The record has this spec, and the namespace of its children is the one that the spec gives. -/
structure Spec.Stated (spec : Spec) (env : Environment) : Prop where
  same : env.spec = spec
  space : env.childNamespace = spec.namespaceName

/-- A pass over the record of a notice puts the object in place or removes it, where the record has
this spec and the namespace is the one that the spec gives. -/
def Spec.Touches (config : Config) (notice : Metadata) (spec : Spec) (target : Address) : Prop :=
  ∃ now t c, (pass config notice now).Asks t c ∧ c.changes? = some target ∧
    ∀ d ∈ t, ∀ env, d.told? = some env → spec.Stated env

namespace Child

variable {config : Config} {env latest : Environment} {ns : String} {now : Instant}
  {notice : Metadata} {status : Status} {spec : Spec} {target : Address} {t : List Deed} {c : Call}
  {child : Child}

private theorem stated_of_entered (stated : spec.Stated env)
    (entered : Entered config env now t latest status)
    (told : ∀ d ∈ t, ∀ env, d.told? = some env → spec.Stated env) :
    latest.spec = spec ∧ spaceOf latest status = spec.namespaceName := by
  cases entered with
  | known => exact ⟨stated.same, env.childNamespace_eq.symm.trans stated.space⟩
  | accepted _ made =>
    have hlatest := told _ (List.mem_singleton_self _) latest rfl
    refine ⟨hlatest.same, ?_⟩
    rw [spaceOf, Status.accepted_ns made, Option.getD_some, stated.same]

private theorem mem_homes_of_upkeep (same : env.spec = spec) (upkeep : Upkeep config env ns c)
    (changes : c.changes? = some target) :
    ∃ child : Child, target ∈ child.homes config spec.prNumber ns := by
  subst same
  cases upkeep with
  | look => cases changes
  | withdraw =>
    obtain rfl := Option.some.inj changes
    exact ⟨ingress, List.mem_singleton_self _⟩
  | apply part =>
    obtain rfl := Option.some.inj changes
    obtain ⟨child, _, hportion⟩ := mem_parts.1 part
    exact ⟨child, target_mem_homes hportion⟩

theorem mem_homes_of_asks (asks : (pass config notice now).Asks t c)
    (changes : c.changes? = some target)
    (told : ∀ d ∈ t, ∀ env, d.told? = some env → spec.Stated env) :
    ∃ child : Child, target ∈ child.homes config spec.prNumber spec.namespaceName := by
  cases turn_of_asks asks with
  | read | hold | refuse | mark | letGo => cases changes
  | @converge space env u c place staying held valid turn =>
    have stated := told (read notice space env) List.mem_cons_self env rfl
    cases turn with
    | accept | price | write => cases changes
    | tend entered upkeep =>
      obtain ⟨hspec, hspace⟩ := stated_of_entered stated entered fun d hd =>
        told d (List.mem_cons_of_mem _ (List.mem_append_left _ hd))
      rw [hspace] at upkeep
      exact mem_homes_of_upkeep hspec upkeep changes
  | @clear space env latest mark u v before after child c place deleting held marked split cleared
      turn =>
    have stated := told (read notice space env) List.mem_cons_self env rfl
    rcases asks_removeOwned (asks_remove.1 turn) with ⟨_, rfl⟩ | ⟨_, _, _, rfl⟩
    · cases changes
    · obtain rfl := Option.some.inj changes
      refine ⟨child, ?_⟩
      rw [stated.space, ← stated.same]
      exact address_mem_homes child

/-- A place of a child is that of the descriptor, or it tells the namespace. -/
theorem descriptor_or_space {pr : UInt32} (h : target ∈ child.homes config pr ns) :
    target = descriptorAddress pr config ∨
      target.kind ≠ .applicationSet ∧ target.ns.getD target.name = ns := by
  cases child with
  | descriptor => exact .inl (List.mem_singleton.1 h)
  | ingress =>
    obtain rfl := List.mem_singleton.1 h
    exact .inr ⟨show ResourceKind.ingress ≠ .applicationSet by decide, rfl⟩
  | «namespace» =>
    refine .inr ?_
    simp only [homes, List.mem_cons, List.not_mem_nil, or_false] at h
    rcases h with rfl | rfl | rfl | rfl | rfl
    · exact ⟨show ResourceKind.namespace ≠ .applicationSet by decide, rfl⟩
    · exact ⟨show ResourceKind.resourceQuota ≠ .applicationSet by decide, rfl⟩
    all_goals exact ⟨show ResourceKind.networkPolicy ≠ .applicationSet by decide, rfl⟩

/-! ## Every place of a child is touched -/

theorem asks_applyAll {ms : List Manifest} {m : Manifest} (h : m ∈ ms) :
    ∃ t, (applyAll ms).Asks t (.apply m) := by
  induction ms with
  | nil => exact absurd h List.not_mem_nil
  | cons first ms ih =>
    rcases List.mem_cons.1 h with rfl | h
    · exact ⟨[], asks_bind.2 (.inl (asks_request.2 ⟨rfl, rfl⟩))⟩
    · obtain ⟨t, ht⟩ := ih h
      exact ⟨.call (.apply first) (.ok ()) :: t,
        asks_bind.2 (.inr ⟨[_], t, (), rfl, gives_request.2 rfl, ht⟩)⟩

theorem asks_ensure_home (config : Config) (env : Environment)
    (h : target ∈ child.homes config env.spec.prNumber ns) :
    ∃ t c, (child.ensure config env ns).Asks t c ∧ c.changes? = some target := by
  cases child with
  | «namespace» =>
    have hsome : «namespace».portion config env ns ≠ [] := List.cons_ne_nil _ _
    obtain ⟨m, hm, rfl⟩ := exists_portion hsome h
    obtain ⟨t, ht⟩ := asks_applyAll hm
    refine ⟨.call (.getObject (namespaceAddress ns)) (.ok none) :: t, .apply m, ?_, rfl⟩
    show (ensureNamespace config env ns).Asks _ _
    rw [ensureNamespace_eq]
    exact asks_bind.2 (.inr ⟨[_], t, none, rfl, gives_request.2 rfl, ht⟩)
  | ingress =>
    obtain rfl := List.mem_singleton.1 h
    show ∃ t c, (ensureIngress config env ns).Asks t c ∧ _
    cases ho : ingressObject? env ns config with
    | some object =>
      rw [ensureIngress_of_some ho]
      exact ⟨[], _, asks_request.2 ⟨rfl, rfl⟩, rfl⟩
    | none =>
      rw [ensureIngress_of_none ho]
      refine ⟨[.call (.getObject (ingressAddress ns)) (.ok (some ⟨none, {}, []⟩))],
        .deleteObject (ingressAddress ns),
        asks_bind.2 (.inl (asks_bind.2 (.inr ⟨[_], [], _, rfl, gives_request.2 rfl, ?_⟩))), rfl⟩
      exact asks_request.2 ⟨rfl, rfl⟩
  | descriptor =>
    obtain rfl := List.mem_singleton.1 h
    show ∃ t c, (ensureDescriptor config env ns).Asks t c ∧ _
    rw [ensureDescriptor_eq]
    exact ⟨[], _, asks_request.2 ⟨rfl, rfl⟩, rfl⟩

/-- Anything can go wrong with the children that come first. -/
theorem exists_tried (config : Config) (env : Environment) (ns : String) (children : List Child) :
    ∃ t, Tried config env ns children t := by
  induction children with
  | nil => exact ⟨[], .nil⟩
  | cons child children ih =>
    obtain ⟨u, hu⟩ := ih
    have hfail : ∃ t, (child.ensure config env ns).Breaks t .client := by
      cases child with
      | «namespace» => exact ⟨[_], breaks_bind.2 (.inl (breaks_request.2 rfl))⟩
      | ingress =>
        show ∃ t, (ensureIngress config env ns).Breaks t .client
        cases ho : ingressObject? env ns config with
        | some object =>
          rw [ensureIngress_of_some ho]
          exact ⟨[_], breaks_request.2 rfl⟩
        | none =>
          rw [ensureIngress_of_none ho]
          exact ⟨[_], breaks_bind.2 (.inl (breaks_bind.2 (.inl (breaks_request.2 rfl))))⟩
      | descriptor =>
        show ∃ t, (ensureDescriptor config env ns).Breaks t .client
        rw [ensureDescriptor_eq]
        exact ⟨[_], breaks_request.2 rfl⟩
    obtain ⟨t, ht⟩ := hfail
    exact ⟨t ++ u, .failed ht hu⟩

end Child

namespace Spec

variable {config : Config} {notice notice' : Metadata} {ns ns' : String} {s s' : Spec}
  {target : Address}

/-- The record of a notice with this spec, held by the finalizer. -/
def record (notice : Metadata) (s : Spec) : Environment where
  metadata := { name := notice.name, ns := notice.ns,
                finalizers := some [Environment.cleanupFinalizer] }
  spec := s
  status := some { ns := some s.namespaceName }

theorem touches_of_home (place : notice.ns = some ns) (valid : s.fault? = none) {child : Child}
    (h : target ∈ child.homes config s.prNumber s.namespaceName) :
    s.Touches config notice target := by
  obtain ⟨v, c, hasks, hchanges⟩ := Child.asks_ensure_home config (s.record notice) h
  obtain ⟨before, after, hall⟩ : ∃ before after, Child.all = before ++ child :: after :=
    List.append_of_mem (by cases child <;> decide)
  obtain ⟨u, tried⟩ := Child.exists_tried config (s.record notice) s.namespaceName before
  have hensure :
      (ensureAll config (s.record notice) s.namespaceName Child.all).Asks (u ++ v) c := by
    rw [hall]
    exact asks_ensureAll tried hasks
  have hvalid : (s.record notice).spec.validate notice.anyName = .ok () := by
    show s.validate _ = _
    rw [validate, valid]
  have hpass : (pass config notice default).Asks
      (read notice ns (s.record notice) :: ([] ++ (u ++ v))) c :=
    asks_of_ensureAll place rfl rfl hvalid (.known rfl) hensure
  refine ⟨_, _, c, hpass, hchanges, fun d hd env htold => ?_⟩
  rcases List.mem_cons.1 hd with rfl | hd
  · obtain rfl : s.record notice = env := Option.some.inj htold
    exact ⟨rfl, rfl⟩
  · obtain ⟨next, hleads⟩ := hensure
    have haside := hleads.isAside ((makes_ensureAll _).mono fun _ => isAside_of_upkeep) d hd
    rw [Deed.told?_of_isAside haside] at htold
    cases htold

/-- What the passes over a record touch are the places of its children, all of them. -/
theorem touches_iff (place : notice.ns = some ns) (valid : s.fault? = none) :
    s.Touches config notice target ↔
      ∃ child : Child, target ∈ child.homes config s.prNumber s.namespaceName := by
  constructor
  · rintro ⟨now, t, c, asks, changes, told⟩
    exact Child.mem_homes_of_asks asks changes told
  · rintro ⟨child, h⟩
    exact touches_of_home place valid h

theorem touches_descriptor (config : Config) (place : notice.ns = some ns)
    (valid : s.fault? = none) :
    s.Touches config notice (Child.descriptorAddress s.prNumber config) := by
  have hmem : Child.descriptorAddress s.prNumber config ∈
      Child.descriptor.homes config s.prNumber s.namespaceName := List.mem_singleton_self _
  exact touches_of_home place valid hmem

/-- What two records share that have the same number: the descriptor, and if their repositories have
the same full name, everything. -/
theorem shared_iff (config : Config) (target : Address) (place : notice.ns = some ns)
    (place' : notice'.ns = some ns') (valid : s.fault? = none) (valid' : s'.fault? = none)
    (apart : s.namespaceKey ≠ s'.namespaceKey → s.shortHash ≠ s'.shortHash) :
    s.Touches config notice target ∧ s'.Touches config notice' target ↔
      s.prNumber = s'.prNumber ∧ (target = Child.descriptorAddress s.prNumber config ∨
        s.repository.fullName = s'.repository.fullName ∧ s.Touches config notice target) := by
  constructor
  · rintro ⟨htouches, htouches'⟩
    obtain ⟨child, h⟩ := (touches_iff place valid).1 htouches
    obtain ⟨child', h'⟩ := (touches_iff place' valid').1 htouches'
    rcases Child.descriptor_or_space h with hplace | ⟨hkind, hspace⟩
    · rcases Child.descriptor_or_space h' with hplace' | ⟨hkind', _⟩
      · have hname := congrArg Address.name (hplace.symm.trans hplace')
        exact ⟨Child.applicationSetName_inj hname, .inl hplace⟩
      · exact absurd (congrArg Address.kind hplace) hkind'
    · rcases Child.descriptor_or_space h' with hplace' | ⟨_, hspace'⟩
      · exact absurd (congrArg Address.kind hplace') hkind
      · obtain ⟨hnumber, hname⟩ := (namespaceName_eq_iff apart).1 (hspace.symm.trans hspace')
        exact ⟨hnumber, .inr ⟨hname, htouches⟩⟩
  · rintro ⟨hnumber, rfl | ⟨hname, htouches⟩⟩
    · have hother := touches_descriptor config place' valid'
      rw [← hnumber] at hother
      exact ⟨touches_descriptor config place valid, hother⟩
    · refine ⟨htouches, ?_⟩
      have hspace := (namespaceName_eq_iff apart).2 ⟨hnumber, hname⟩
      rw [touches_iff place valid] at htouches
      rwa [touches_iff place' valid', ← hnumber, ← hspace]

/-- As long as the hashes of different keys differ, the passes over two records with valid specs
touch no object in common if and only if the numbers differ. With the same number they have the
descriptor in common. They have nothing else in common unless their repositories have the same full
name. -/
theorem disjoint_iff_number (config : Config) {notice notice' : Metadata} {ns ns' : String}
    {s s' : Spec} (place : notice.ns = some ns) (place' : notice'.ns = some ns')
    (valid : s.fault? = none) (valid' : s'.fault? = none)
    (apart : s.namespaceKey ≠ s'.namespaceKey → s.shortHash ≠ s'.shortHash) :
    ((∀ target, s.Touches config notice target → ¬s'.Touches config notice' target) ↔
      s.prNumber ≠ s'.prNumber) ∧
    ∀ target, s.Touches config notice target ∧ s'.Touches config notice' target ↔
      s.prNumber = s'.prNumber ∧ (target = Child.descriptorAddress s.prNumber config ∨
        s.repository.fullName = s'.repository.fullName ∧ s.Touches config notice target) := by
  have hshared (target : Address) := shared_iff config target place place' valid valid' apart
  refine ⟨⟨fun hdisjoint hnumber => ?_, fun hnumber target htouches htouches' => ?_⟩, hshared⟩
  · obtain ⟨htouches, htouches'⟩ := (hshared _).2 ⟨hnumber, .inl rfl⟩
    exact hdisjoint _ htouches htouches'
  · exact hnumber ((hshared target).1 ⟨htouches, htouches'⟩).1

/-- The fifth pull request of the repository of this owner. -/
def fifth (owner : String) : Spec :=
  { repository := ⟨owner, "shop", none⟩, prNumber := 5,
    headSha := "0123456789abcdef0123456789abcdef01234567", ttl := "4h" }

/-- The notice of the record for it. -/
def fifthNotice (owner : String) : Metadata := { name := some owner, ns := some "previews" }

theorem ns_fifthNotice (owner : String) : (fifthNotice owner).ns = some "previews" := rfl

theorem valid_fifth : (fifth "acme").fault? = none ∧ (fifth "apex").fault? = none := by
  decide +kernel

theorem shortHash_fifth : (fifth "acme").shortHash ≠ (fifth "apex").shortHash := by decide +kernel

/-- They have nothing but the descriptor in common. -/
theorem disjoint_iff_number_fifth : (fifth "acme").shortHash ≠ (fifth "apex").shortHash ∧
    ∀ target, (fifth "acme").Touches {} (fifthNotice "acme") target ∧
        (fifth "apex").Touches {} (fifthNotice "apex") target ↔
      target = Child.descriptorAddress 5 {} := by
  refine ⟨shortHash_fifth, fun target => ?_⟩
  obtain ⟨valid, valid'⟩ := valid_fifth
  have hiff := (disjoint_iff_number {} (ns_fifthNotice "acme") (ns_fifthNotice "apex") valid valid'
    fun _ => shortHash_fifth).2 target
  have hname : (fifth "acme").repository.fullName ≠ (fifth "apex").repository.fullName := by decide
  rw [hiff]
  constructor
  · rintro ⟨_, hplace | ⟨hsame, _⟩⟩
    · exact hplace
    · exact absurd hsame hname
  · exact fun hplace => ⟨rfl, .inl hplace⟩

/-- Pull requests of different repositories touch the same object. -/
theorem descriptor_in_common :
    (fifth "acme").fault? = none ∧ (fifth "apex").fault? = none ∧
      (fifth "acme").repository ≠ (fifth "apex").repository ∧
      (fifth "acme").shortHash ≠ (fifth "apex").shortHash ∧
      ∃ target, (fifth "acme").Touches {} (fifthNotice "acme") target ∧
        (fifth "apex").Touches {} (fifthNotice "apex") target := by
  obtain ⟨valid, valid'⟩ := valid_fifth
  exact ⟨valid, valid', by decide, shortHash_fifth, _,
    touches_descriptor {} (ns_fifthNotice "acme") valid,
    touches_descriptor {} (ns_fifthNotice "apex") valid'⟩

end Spec
end PreviewControl
