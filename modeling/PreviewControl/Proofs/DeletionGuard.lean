import PreviewControl.Proofs.Course

/-!
# The deletion guard

A record is let go only when each of its three children is out of the way, and a child that cannot
be read or removed keeps the record. The answers to the calls are arbitrary throughout.
-/
namespace PreviewControl.Reconcile

open Pass

variable {config : Config} {notice : Metadata} {now : Instant} {ns : String} {env : Environment}

/-- What is left of a pass when the removal of a child has failed: the failure is reported and
measured, and it is the failure of the pass. -/
def givenUp (env : Environment) (child : Child) (e : Failure) : Pass Requeue :=
  .announce (cleanupFailed env child e)
    (.count (.passEnded false) (.count (.passFailed e.isRetryable) (.fail e)))

theorem leads_release_blocked {mark u v : List Deed} {latest : Environment}
    {before after : List Child} {child : Child} {e : Failure} (marked : Marked env now mark latest)
    (split : Child.all.reverse = before ++ child :: after)
    (cleared : ClearedAll config env env.childNamespace before u)
    (blocked : Child.Blocked env (child.address config env env.childNamespace) e v) :
    (release config env now).Leads (mark ++ (u ++ v))
      (.announce (cleanupFailed env child e) (.fail e)) := by
  have hr := leads_removeAll_blocked after cleared blocked
  rw [← split] at hr
  exact (Leads.bind (gives_markTerminating.2 marked) _).trans (hr.bind _)

/-- A pass that cannot remove a child gives up. -/
theorem leads_pass_blocked {mark u v : List Deed} {latest : Environment}
    {before after : List Child} {child : Child} {e : Failure} (place : notice.ns = some ns)
    (deleting : env.metadata.isDeleting = true) (held : env.hasFinalizer = true)
    (marked : Marked env now mark latest) (split : Child.all.reverse = before ++ child :: after)
    (cleared : ClearedAll config env env.childNamespace before u)
    (blocked : Child.Blocked env (child.address config env env.childNamespace) e v) :
    (pass config notice now).Leads (read notice ns env :: (mark ++ (u ++ v)))
      (givenUp env child e) := by
  have hs : (step config notice.anyName env now).Leads (mark ++ (u ++ v))
      (.announce (cleanupFailed env child e) (.fail e)) := by
    unfold step
    simp only [deleting, held, if_true]
    exact leads_release_blocked marked split cleared blocked
  have ha : (act config notice now).Leads (read notice ns env :: (mark ++ (u ++ v)))
      (.announce (cleanupFailed env child e) (.fail e)) := by
    unfold act
    rw [place]
    exact .call hs
  exact ha.attempt.bind _

/-! ## Nothing but the removal -/

/-- A deed on the way to the last child: the mark, or a call on a child. -/
inductive Clearing : Deed → Prop where
  | mark {env : Environment} {status : Status} {answer : Except Failure Environment} :
    Clearing (.call (.patchStatus env status) answer)
  | look {target : Address} {answer : Except Failure (Option StoredObject)} :
    Clearing (.call (.getObject target) answer)
  | delete {target : Address} {answer : Except Failure Bool} :
    Clearing (.call (.deleteObject target) answer)

private theorem clearing_marked {t : List Deed} {latest : Environment}
    (h : Marked env now t latest) : ∀ d ∈ t, Clearing d := by
  intro d hd
  cases h with
  | already => cases hd
  | written | unwritten =>
    rw [List.mem_singleton.1 hd]
    exact .mark

private theorem clearing_cleared {t : List Deed} {target : Address}
    (h : Child.Cleared env target t) : ∀ d ∈ t, Clearing d := by
  intro d hd
  cases h with
  | absent | foreign =>
    rw [List.mem_singleton.1 hd]
    exact .look
  | deleted =>
    rcases List.mem_cons.1 hd with rfl | hd
    · exact .look
    · rw [List.mem_singleton.1 hd]
      exact .delete

private theorem clearing_clearedAll {children : List Child} {t : List Deed}
    (h : ClearedAll config env ns children t) : ∀ d ∈ t, Clearing d := by
  induction h with
  | nil =>
    intro d hd
    cases hd
  | cons first _ ih =>
    intro d hd
    rcases List.mem_append.1 hd with hd | hd
    · exact clearing_cleared first d hd
    · exact ih d hd

/-! ## The guard -/

/-- What has to have happened in a pass, in this order and nothing else, for the record to be let
go: the record was read as deleted and held, and its children were cleared, the last one first. -/
inductive LetGo (config : Config) (notice : Metadata) (now : Instant) :
    List Deed → Environment → Prop where
  | mk {ns : String} {env latest : Environment} {mark descriptor ingress space : List Deed}
      (place : notice.ns = some ns) (deleting : env.metadata.isDeleting = true)
      (held : env.hasFinalizer = true) (marked : Marked env now mark latest)
      (first : Child.Cleared env (Child.descriptorAddress env.spec.prNumber config) descriptor)
      (second : Child.Cleared env (Child.ingressAddress env.childNamespace) ingress)
      (third : Child.Cleared env (Child.namespaceAddress env.childNamespace) space) :
    LetGo config notice now
      (read notice ns env :: (mark ++ (descriptor ++ (ingress ++ space)))) latest

theorem letGo_of_asks {t : List Deed} {latest : Environment}
    (h : (pass config notice now).Asks t (.removeFinalizer latest)) :
    LetGo config notice now t latest := by
  generalize hc : Call.removeFinalizer latest = c at h
  cases turn_of_asks h with
  | read | hold | refuse | mark => cases hc
  | converge _ _ _ _ turn =>
    subst hc
    cases turn with
    | tend _ upkeep => cases upkeep
  | clear _ _ _ _ _ _ turn =>
    subst hc
    obtain ⟨_, hc⟩ | ⟨_, _, _, hc⟩ := Child.asks_removeOwned (Child.asks_remove.1 turn) <;> cases hc
  | letGo place deleting held marked cleared =>
    injection hc with hc
    subst hc
    cases cleared with
    | cons first rest =>
      cases rest with
      | cons second rest =>
        cases rest with
        | cons third rest =>
          cases rest
          rw [List.append_nil]
          exact .mk place deleting held marked first second third

theorem LetGo.clearing {t : List Deed} {latest : Environment}
    (h : LetGo config notice now t latest) :
    ∃ ns env u, notice.ns = some ns ∧ env.metadata.isDeleting = true ∧ env.hasFinalizer = true ∧
      t = read notice ns env :: u ∧ ∀ d ∈ u, Clearing d := by
  cases h with
  | mk place deleting held marked first second third =>
    refine ⟨_, _, _, place, deleting, held, rfl, fun d hd => ?_⟩
    simp only [List.mem_append] at hd
    rcases hd with hd | hd | hd | hd
    · exact clearing_marked marked d hd
    · exact clearing_cleared first d hd
    · exact clearing_cleared second d hd
    · exact clearing_cleared third d hd

/-- Nothing else is asked for before a record is let go. -/
theorem asks_of_letGo {t : List Deed} {latest : Environment}
    (h : LetGo config notice now t latest) :
    (pass config notice now).Asks t (.removeFinalizer latest) := by
  cases h with
  | @mk ns env _ mark descriptor ingress space place deleting held marked first second third =>
    have hall : ClearedAll config env env.childNamespace Child.all.reverse
        (descriptor ++ (ingress ++ (space ++ []))) := .cons first (.cons second (.cons third .nil))
    rw [List.append_nil] at hall
    have hr : (release config env now).Asks (mark ++ (descriptor ++ (ingress ++ space)))
        (.removeFinalizer latest) := by
      refine asks_bind.2 (.inr ⟨mark, _, latest, rfl, gives_markTerminating.2 marked, ?_⟩)
      refine asks_bind.2 (.inr ⟨_, [], (), (List.append_nil _).symm, gives_removeAll.2 hall, ?_⟩)
      exact asks_bind.2 (.inl (asks_request.2 ⟨rfl, rfl⟩))
    refine asks_bind.2 (.inl (asks_attempt.2 ?_))
    unfold act
    rw [place]
    refine asks_bind.2 (.inr ⟨[_], _, some env, rfl, gives_request.2 rfl, ?_⟩)
    simp only [step, deleting, held, if_true]
    exact hr

/-- A failed call on a child leaves nothing of the pass but the failure, and nothing has been let go
or reported before it. -/
theorem givenUp_of_failure {t : List Deed} {target : Address} {c : Call} {e : Failure}
    {rest : Pass Requeue} (touched : c = .getObject target ∨ c = .deleteObject target)
    (deleting : env.metadata.isDeleting = true)
    (h : (pass config notice now).Leads
      (read notice ns env :: (t ++ [.call c (.error e)])) rest) :
    (∀ d ∈ t, Clearing d) ∧ ∃ child ∈ Child.all,
      target = child.address config env env.childNamespace ∧ rest = givenUp env child e := by
  have ha : (pass config notice now).Asks (read notice ns env :: t) c := Leads.asks h
  generalize hs : read notice ns env :: t = s at ha
  cases turn_of_asks ha with
  | read => cases hs
  | hold _ staying | refuse _ staying | converge _ staying =>
    injection hs with hr
    obtain ⟨rfl, rfl⟩ := read_inj.1 hr
    rw [deleting] at staying
    cases staying
  | mark | letGo => obtain hc | hc := touched <;> cases hc
  | @clear _ _ latest mark u v before after child _ place _ held marked split cleared turn =>
    injection hs with hr ht
    obtain ⟨rfl, rfl⟩ := read_inj.1 hr
    subst ht
    have hm : child ∈ Child.all := by
      rw [← List.mem_reverse, split]
      exact List.mem_append_right before (List.mem_cons_self ..)
    obtain ⟨htarget, blocked, hv⟩ : target = child.address config env env.childNamespace ∧
        Child.Blocked env (child.address config env env.childNamespace) e
          (v ++ [.call c (.error e)]) ∧ ∀ d ∈ v, Clearing d := by
      rcases Child.asks_removeOwned (Child.asks_remove.1 turn)
        with ⟨rfl, rfl⟩ | ⟨object, rfl, own, rfl⟩
      · refine ⟨?_, .unread, fun d hd => absurd hd List.not_mem_nil⟩
        rcases touched with hc | hc <;> cases hc
        rfl
      · refine ⟨?_, .undeleted own, fun d hd => ?_⟩
        · rcases touched with hc | hc <;> cases hc
          rfl
        · rw [List.mem_singleton.1 hd]
          exact .look
    have hl := leads_pass_blocked place deleting held marked split cleared blocked
    refine ⟨?_, child, hm, htarget, ?_⟩
    · intro d hd
      rcases List.mem_append.1 hd with hd | hd
      · exact clearing_marked marked d hd
      · rcases List.mem_append.1 hd with hd | hd
        · exact clearing_clearedAll cleared d hd
        · exact hv d hd
    · rw [List.append_assoc, List.append_assoc] at h
      exact Leads.unique h hl

/-- Whatever the answers are, a pass asks for the release of the record exactly when all three
children have been cleared in it. If a call on a child fails, the rest of the pass is the report of
this failure and the failure itself, without another call. -/
theorem record_held_until_cleared (config : Config) (notice : Metadata) (now : Instant) :
    (∀ t latest, (pass config notice now).Asks t (.removeFinalizer latest) ↔
      LetGo config notice now t latest) ∧
    (∀ ns env t target c e rest, c = .getObject target ∨ c = .deleteObject target →
      env.metadata.isDeleting = true →
      (pass config notice now).Leads (read notice ns env :: (t ++ [.call c (.error e)])) rest →
      (∀ latest answer, .call (.removeFinalizer latest) answer ∉ t) ∧ (∀ event, .event event ∉ t) ∧
        ∃ child ∈ Child.all, rest = givenUp env child e) := by
  refine ⟨fun t latest => ⟨letGo_of_asks, asks_of_letGo⟩, ?_⟩
  intro ns env t target c e rest touched deleting h
  obtain ⟨hc, child, hchild, _, hrest⟩ := givenUp_of_failure touched deleting h
  refine ⟨?_, ?_, child, hchild, hrest⟩
  · intro latest answer hd
    cases hc _ hd
  · intro event hd
    cases hc _ hd

/-- A record that is being deleted and has been marked so. -/
def leaving : Environment where
  metadata := { name := some "pr-5", ns := some "previews", uid := some "u-5",
                finalizers := some [Environment.cleanupFinalizer],
                deletionTimestamp := some default }
  spec := { repository := ⟨"owner", "shop", none⟩, prNumber := 5, headSha := "", ttl := "4h" }
  status := some { phase := some .terminating, ns := some "pr-5-0a1b2c" }

/-- The metadata of an object that a record with another identity owns. -/
def strangers : Metadata := { annotations := some [(Environment.uidMark, "u-6")] }

/-- With the descriptor gone, the ingress another record's and the namespace deleted, the record is
let go; with an ingress that cannot be read, it is not. -/
theorem record_held_until_cleared_leaving :
    (pass {} leaving.metadata default).Asks
      [read leaving.metadata "previews" leaving,
       .call (.getObject (Child.descriptorAddress 5 {})) (.ok none),
       .call (.getObject (Child.ingressAddress "pr-5-0a1b2c")) (.ok (some ⟨none, strangers, []⟩)),
       .call (.getObject (Child.namespaceAddress "pr-5-0a1b2c")) (.ok (some ⟨none, {}, []⟩)),
       .call (.deleteObject (Child.namespaceAddress "pr-5-0a1b2c")) (.ok true)]
      (.removeFinalizer leaving) ∧
    ∃ rest, (pass {} leaving.metadata default).Leads
      [read leaving.metadata "previews" leaving,
       .call (.getObject (Child.descriptorAddress 5 {})) (.ok none),
       .call (.getObject (Child.ingressAddress "pr-5-0a1b2c")) (.error .client)] rest ∧
      ∃ child ∈ Child.all, rest = givenUp leaving child .client := by
  have held : leaving.hasFinalizer = true := by decide
  refine ⟨((record_held_until_cleared {} leaving.metadata default).1 _ _).2
    (.mk rfl rfl held (.already rfl) .absent (.foreign (show _ = some "u-6" from rfl) (by decide))
      (.deleted rfl)), ?_⟩
  have marked : Marked leaving default [] leaving := .already rfl
  have cleared : ClearedAll {} leaving leaving.childNamespace [.descriptor] _ :=
    .cons .absent .nil
  have blocked : Child.Blocked leaving
      (Child.address {} leaving leaving.childNamespace .ingress) .client _ := .unread
  have hd := leads_pass_blocked (show leaving.metadata.ns = some "previews" from rfl) rfl held
    marked rfl cleared blocked
  exact ⟨_, hd, ((record_held_until_cleared {} leaving.metadata default).2 "previews" leaving
    [_] _ _ .client _ (.inl rfl) rfl hd).2.2⟩

end PreviewControl.Reconcile
