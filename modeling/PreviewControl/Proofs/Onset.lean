import Mathlib.Data.List.Basic
import Mathlib.Data.List.Induction
import PreviewControl.Proofs.StatusLaws

/-!
# Since when a condition is as it is

Updates that are entered into a list of conditions, one after the other. The list keeps its order,
and types that are new come behind it as they turn up. Under each type stands the entry from which
on nothing new has been said about it, and so its time is that of the last change.
-/
namespace PreviewControl.Condition

variable {cs updates entries : List Condition} {c d u : Condition} {type : String}

/-- Enters updates one after the other. -/
def enterAll (cs updates : List Condition) : List Condition :=
  updates.foldl (fun cs c => c.enter cs) cs

theorem enterAll_concat (cs updates : List Condition) (u : Condition) :
    enterAll cs (updates ++ [u]) = u.enter (enterAll cs updates) := by
  simp [enterAll]

/-- Two conditions say the same, at whatever times. -/
structure Alike (c d : Condition) : Prop where
  verdict : c.verdict = d.verdict
  reason : c.reason = d.reason
  message : c.message = d.message

theorem Alike.refl (c : Condition) : c.Alike c := ⟨rfl, rfl, rfl⟩

theorem Alike.symm (h : c.Alike d) : d.Alike c := ⟨h.1.symm, h.2.symm, h.3.symm⟩

theorem Alike.trans (h : c.Alike d) (h' : d.Alike u) : c.Alike u :=
  ⟨h.1.trans h'.1, h.2.trans h'.2, h.3.trans h'.3⟩

theorem sameState_iff : c.sameState d = true ↔ c.type = d.type ∧ c.Alike d := by
  simp only [sameState, Bool.and_eq_true, beq_iff_eq]
  constructor
  · rintro ⟨⟨⟨htype, hverdict⟩, hreason⟩, hmessage⟩
    exact ⟨htype, hverdict, hreason, hmessage⟩
  · rintro ⟨htype, hverdict, hreason, hmessage⟩
    exact ⟨⟨⟨htype, hverdict⟩, hreason⟩, hmessage⟩

/-! ## One update -/

theorem mem_of_find? (h : find? type cs = some d) : d ∈ cs ∧ d.type = type := by
  unfold find? at h
  exact ⟨List.mem_of_find?_eq_some h, by simpa using List.find?_some h⟩

theorem find?_enter_of_ne (h : c.type ≠ type) : find? type (c.enter cs) = find? type cs := by
  induction cs with
  | nil => simp [find?, enter, h]
  | cons d ds ih =>
    unfold enter
    by_cases hd : d.type = c.type
    · have hne : d.type ≠ type := fun htype => h (hd.symm.trans htype)
      by_cases hs : d.sameState c = true
      · simp [hd, hs]
      · simp [find?, hd, hs, h]
    · simp only [beq_iff_eq, hd, if_false]
      simp only [find?] at ih ⊢
      rw [List.find?_cons, List.find?_cons, ih]

/-- An update is entered where something else is said about its type, or nothing yet. -/
theorem find?_enter_self : find? c.type (c.enter cs) = some (match find? c.type cs with
    | some d => if d.sameState c then d else c
    | none => c) := by
  induction cs with
  | nil => simp [find?, enter]
  | cons d ds ih =>
    unfold enter
    by_cases hd : d.type = c.type
    · by_cases hs : d.sameState c = true
      · simp [find?, hd, hs]
      · simp [find?, hd, hs]
    · simpa [find?, hd] using ih

theorem mem_enter_of_ne (mem : d ∈ cs) (h : d.type ≠ c.type) : d ∈ c.enter cs := by
  induction cs with
  | nil => cases mem
  | cons e es ih =>
    unfold enter
    rcases List.mem_cons.1 mem with rfl | mem
    · simp [h]
    · by_cases he : e.type = c.type
      · simp [he, mem]
      · simp [he, ih mem]

/-! ## Histories -/

/-- All that has been said about a type: in the beginning, and then by the updates. -/
def history (type : String) (cs updates : List Condition) : List Condition :=
  (cs ++ updates).filter (·.type == type)

/-- The earliest entry of a history from which on all others are like it. -/
def Onset (entries : List Condition) (d : Condition) : Prop :=
  ∃ before later, entries = before ++ d :: later ∧ (∀ u ∈ later, d.Alike u) ∧
    ∀ before' d' later', entries = before' ++ d' :: later' → (∀ u ∈ later', d'.Alike u) →
      before.length ≤ before'.length

/-- An entry that all later ones are like is like the last one. -/
theorem alike_getLast (before : List Condition) {later : List Condition}
    (h : ∀ u ∈ later, d.Alike u) :
    ∃ last, (before ++ d :: later).getLast? = some last ∧ d.Alike last := by
  rcases List.eq_nil_or_concat later with rfl | ⟨later, last, rfl⟩
  · exact ⟨d, by simp, .refl d⟩
  · refine ⟨last, ?_, h last (by simp)⟩
    rw [List.concat_eq_append, ← List.cons_append, ← List.append_assoc, List.getLast?_concat]

theorem Onset.getLast (h : Onset entries d) : ∃ last, entries.getLast? = some last ∧
    d.Alike last := by
  obtain ⟨before, later, rfl, alike, _⟩ := h
  exact alike_getLast before alike

theorem onset_singleton (d : Condition) : Onset [d] d :=
  ⟨[], [], rfl, List.forall_mem_nil _, fun _ _ _ _ _ => Nat.zero_le _⟩

/-- How a longer history is parted: at its new end, or within what was there before. -/
theorem append_singleton_parted {before later : List Condition}
    (h : entries ++ [u] = before ++ d :: later) :
    (before = entries ∧ d = u ∧ later = []) ∨
      ∃ rest, later = rest ++ [u] ∧ entries = before ++ d :: rest := by
  rcases List.eq_nil_or_concat later with rfl | ⟨rest, last, rfl⟩
  · obtain ⟨hentries, hlast⟩ := List.append_inj' h rfl
    exact .inl ⟨hentries.symm, (List.singleton_inj.1 hlast).symm, rfl⟩
  · rw [List.concat_eq_append, ← List.cons_append, ← List.append_assoc] at h
    obtain ⟨hentries, hlast⟩ := List.append_inj' h rfl
    obtain rfl := List.singleton_inj.1 hlast
    exact .inr ⟨rest, List.concat_eq_append, hentries⟩

/-- An update that says nothing new leaves the onset where it is. -/
theorem Onset.keep (h : Onset entries d) (alike : d.Alike u) : Onset (entries ++ [u]) d := by
  obtain ⟨before, later, hentries, hlater, earliest⟩ := h
  refine ⟨before, later ++ [u], by simp [hentries], ?_, fun before' d' later' hparted hlike => ?_⟩
  · intro v hv
    rcases List.mem_append.1 hv with hv | hv
    · exact hlater v hv
    · rw [List.mem_singleton.1 hv]
      exact alike
  · rcases append_singleton_parted hparted with ⟨rfl, _⟩ | ⟨rest, rfl, hrest⟩
    · simp [hentries]
    · exact earliest before' d' rest hrest fun v hv => hlike v (List.mem_append_left _ hv)

/-- An update that says something new is the onset. -/
theorem Onset.renew (h : Onset entries d) (unlike : ¬d.Alike u) : Onset (entries ++ [u]) u := by
  obtain ⟨last, hlast, hd⟩ := h.getLast
  refine ⟨entries, [], rfl, List.forall_mem_nil _, fun before' d' later' hparted hlike => ?_⟩
  rcases append_singleton_parted hparted with ⟨rfl, _⟩ | ⟨rest, rfl, rfl⟩
  · exact Nat.le_refl _
  · obtain ⟨last', hlast', hd'⟩ := alike_getLast before' fun v hv =>
      hlike v (List.mem_append_left _ hv)
    obtain rfl := Option.some.inj (hlast.symm.trans hlast')
    exact absurd (hd.trans (hd'.symm.trans (hlike u (by simp)))) unlike

/-! ## All updates -/

theorem history_concat (type : String) (cs updates : List Condition) (u : Condition) :
    history type cs (updates ++ [u]) =
      history type cs updates ++ if u.type = type then [u] else [] := by
  by_cases h : u.type = type
  · simp [history, h]
  · simp [history, h]

/-- Of a list of conditions with different types at most one is of a type. -/
theorem filter_type (distinct : (cs.map (·.type)).Nodup) (type : String) :
    cs.filter (·.type == type) = (find? type cs).toList := by
  induction cs with
  | nil => rfl
  | cons d ds ih =>
    obtain ⟨hd, hds⟩ := List.nodup_cons.1 distinct
    by_cases htype : d.type = type
    · have hnone : ds.filter (·.type == type) = [] := by
        refine List.filter_eq_nil_iff.2 fun e he heq => hd ?_
        exact List.mem_map.2 ⟨e, he, (beq_iff_eq.1 heq).trans htype.symm⟩
      simp [find?, htype, hnone]
    · simpa [find?, htype] using ih hds

/-- What stands under a type after all updates is the onset of its history. -/
theorem find?_enterAll (distinct : (cs.map (·.type)).Nodup) (updates : List Condition)
    (type : String) :
    (history type cs updates = [] ∧ find? type (enterAll cs updates) = none) ∨
      ∃ d, find? type (enterAll cs updates) = some d ∧ Onset (history type cs updates) d := by
  induction updates using List.reverseRecOn with
  | nil =>
    rw [history, List.append_nil, filter_type distinct, enterAll, List.foldl_nil]
    cases find? type cs with
    | none => exact .inl ⟨rfl, rfl⟩
    | some d => exact .inr ⟨d, rfl, onset_singleton d⟩
  | append_singleton updates u ih =>
    rw [enterAll_concat, history_concat]
    by_cases htype : u.type = type
    · subst htype
      rw [if_pos rfl, find?_enter_self]
      rcases ih with ⟨hnone, hfind⟩ | ⟨d, hfind, onset⟩
      · rw [hfind, hnone]
        exact .inr ⟨u, rfl, onset_singleton u⟩
      · rw [hfind]
        refine .inr ⟨_, rfl, ?_⟩
        have hd := (mem_of_find? hfind).2
        by_cases hs : d.sameState u = true
        · simp only [hs, if_true]
          exact onset.keep (sameState_iff.1 hs).2
        · simp only [hs]
          exact onset.renew fun alike => hs (sameState_iff.2 ⟨hd, alike⟩)
    · rw [if_neg htype, List.append_nil, find?_enter_of_ne htype]
      exact ih

theorem mem_enterAll_of_untouched (mem : c ∈ cs) (untouched : ∀ u ∈ updates, u.type ≠ c.type) :
    c ∈ enterAll cs updates := by
  induction updates using List.reverseRecOn with
  | nil => exact mem
  | append_singleton updates u ih =>
    rw [enterAll_concat]
    have hu : u.type ≠ c.type := untouched u (by simp)
    exact mem_enter_of_ne (ih fun v hv => untouched v (List.mem_append_left _ hv)) hu.symm

/-! ## The order of the types -/

/-- What comes behind the types that are known: the others that are brought, in the order in which
they turn up first. -/
structure Appended (known brought new : List String) : Prop where
  mem_iff : ∀ type, type ∈ new ↔ type ∉ known ∧ type ∈ brought
  ordered : new.Pairwise fun a b => brought.idxOf a < brought.idxOf b

namespace Appended

variable {known brought new : List String}

theorem nil (known : List String) : Appended known [] [] := ⟨by simp, .nil⟩

/-- What is brought later does not change the order. -/
theorem ordered_concat (h : Appended known brought new) (type : String) :
    new.Pairwise fun a b => (brought ++ [type]).idxOf a < (brought ++ [type]).idxOf b :=
  h.ordered.imp_of_mem fun ha hb hlt => by
    rw [List.idxOf_append_of_mem ((h.mem_iff _).1 ha).2,
      List.idxOf_append_of_mem ((h.mem_iff _).1 hb).2]
    exact hlt

/-- A type that is there already changes nothing. -/
theorem repeated (h : Appended known brought new) (there : type ∈ known ++ new) :
    Appended known (brought ++ [type]) new := by
  refine ⟨fun other => ?_, h.ordered_concat type⟩
  rw [h.mem_iff, List.mem_append, List.mem_singleton]
  constructor
  · exact fun ⟨hknown, hbrought⟩ => ⟨hknown, .inl hbrought⟩
  · rintro ⟨hknown, hbrought | rfl⟩
    · exact ⟨hknown, hbrought⟩
    · exact (h.mem_iff other).1 ((List.mem_append.1 there).resolve_left hknown)

/-- A type that turns up for the first time comes last. -/
theorem fresh (h : Appended known brought new) (absent : type ∉ known ++ new) :
    Appended known (brought ++ [type]) (new ++ [type]) := by
  rw [List.mem_append, not_or] at absent
  have hbrought : type ∉ brought := fun hmem => absent.2 ((h.mem_iff type).2 ⟨absent.1, hmem⟩)
  refine ⟨fun other => ?_, List.pairwise_append.2 ⟨h.ordered_concat type, by simp, ?_⟩⟩
  · rw [List.mem_append, List.mem_append, List.mem_singleton, h.mem_iff]
    constructor
    · rintro (⟨hknown, hother⟩ | rfl)
      · exact ⟨hknown, .inl hother⟩
      · exact ⟨absent.1, .inr rfl⟩
    · rintro ⟨hknown, hother | rfl⟩
      · exact .inl ⟨hknown, hother⟩
      · exact .inr rfl
  · intro a ha b hb
    have hmem := ((h.mem_iff a).1 ha).2
    rw [List.mem_singleton.1 hb, List.idxOf_append_of_mem hmem,
      List.idxOf_append_of_notMem hbrought]
    exact Nat.lt_add_right _ (List.idxOf_lt_length_of_mem hmem)

end Appended

theorem map_type_enterAll (cs updates : List Condition) :
    ∃ new, (enterAll cs updates).map (·.type) = cs.map (·.type) ++ new ∧
      Appended (cs.map (·.type)) (updates.map (·.type)) new := by
  induction updates using List.reverseRecOn with
  | nil => exact ⟨[], (List.append_nil _).symm, .nil _⟩
  | append_singleton updates u ih =>
    obtain ⟨new, htypes, appended⟩ := ih
    rw [enterAll_concat, map_type_enter, htypes, List.map_append, List.map_singleton]
    split
    · next there => exact ⟨new, rfl, appended.repeated there⟩
    · next absent => exact ⟨new ++ [u.type], List.append_assoc _ _ _, appended.fresh absent⟩

theorem nodup_enterAll (distinct : (cs.map (·.type)).Nodup) (updates : List Condition) :
    ((enterAll cs updates).map (·.type)).Nodup := by
  induction updates using List.reverseRecOn with
  | nil => exact distinct
  | append_singleton updates u ih =>
    rw [enterAll_concat]
    exact nodup_enter u ih

/-- Whatever updates are entered into a list of conditions with different types: the types stay
different, those of the beginning keep their order, and new ones come behind them in the order in
which they turn up first. What no update is about stays as it is. And what stands under the type of
an update says the same as the last update of this type, and is the earliest entry of the type from
which on all later updates of the type say so, with the time of that entry. -/
theorem updates_keep_onset (distinct : (cs.map (·.type)).Nodup) (updates : List Condition) :
    ((enterAll cs updates).map (·.type)).Nodup ∧
    (∃ new, (enterAll cs updates).map (·.type) = cs.map (·.type) ++ new ∧
      Appended (cs.map (·.type)) (updates.map (·.type)) new) ∧
    (∀ c ∈ cs, (∀ u ∈ updates, u.type ≠ c.type) → c ∈ enterAll cs updates) ∧
    ∀ u ∈ updates, ∃ d ∈ enterAll cs updates, d.type = u.type ∧
      (∃ last, (updates.filter (·.type == u.type)).getLast? = some last ∧ d.Alike last) ∧
      Onset (history u.type cs updates) d := by
  refine ⟨nodup_enterAll distinct updates, map_type_enterAll cs updates,
    fun c mem untouched => mem_enterAll_of_untouched mem untouched, fun u hu => ?_⟩
  have hupdates : u ∈ updates.filter (·.type == u.type) := List.mem_filter.2 ⟨hu, by simp⟩
  have hhistory : history u.type cs updates =
      cs.filter (·.type == u.type) ++ updates.filter (·.type == u.type) := List.filter_append ..
  rcases find?_enterAll distinct updates u.type with ⟨hnone, _⟩ | ⟨d, hfind, onset⟩
  · rw [hhistory, List.append_eq_nil_iff] at hnone
    rw [hnone.2] at hupdates
    cases hupdates
  · obtain ⟨mem, htype⟩ := mem_of_find? hfind
    obtain ⟨last, hlast, alike⟩ := onset.getLast
    refine ⟨d, mem, htype, ⟨last, ?_, alike⟩, onset⟩
    have hne := List.ne_nil_of_mem hupdates
    rw [hhistory, List.getLast?_append, List.getLast?_eq_some_getLast hne, Option.some_or] at hlast
    rw [List.getLast?_eq_some_getLast hne, hlast]

/-- The condition that an environment is still being put in place, after so many seconds. -/
def waiting (seconds : Nat) : Condition :=
  ⟨readyType, .fails, "Provisioning", "waiting", ((default : Instant).add? seconds).getD default⟩

/-- The environment is ready for a while, then it is waited for again, and once more. -/
def setback : List Condition :=
  [waiting 60, { waiting 120 with verdict := .holds, reason := "Ready" },
    { waiting 150 with type := "Expiring" }, waiting 180, waiting 240]

/-- What is said again after a change counts from then on, and not from the beginning. -/
theorem updates_keep_onset_setback : enterAll [waiting 0] setback =
      [waiting 180, { waiting 150 with type := "Expiring" }] ∧
    Onset (history readyType [waiting 0] setback) (waiting 180) := by
  have hall : enterAll [waiting 0] setback =
      [waiting 180, { waiting 150 with type := "Expiring" }] := by decide +kernel
  have distinct : ([waiting 0].map (·.type)).Nodup := by simp
  obtain ⟨d, hd, htype, _, onset⟩ :=
    (updates_keep_onset distinct setback).2.2.2 (waiting 60) List.mem_cons_self
  rw [hall, List.mem_cons, List.mem_singleton] at hd
  rcases hd with rfl | rfl
  · exact ⟨hall, onset⟩
  · exact absurd htype (by decide)

end PreviewControl.Condition
