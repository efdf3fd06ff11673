import Mathlib.Data.Nat.Find
import PreviewControl.Startup.Wait

/-!
# Polling on schedule

Waiting by polls ends of its own accord. No poll starts after the timeout, and from the start of one
poll to that of the next there is at least the interval, so that the limit on the number of polls
is never reached. The first poll that finds something decides, if it starts in time.
-/
namespace PreviewControl.Wait

variable {α : Type} {timeout interval limit more k elapsed n : Nat} {script script' : Nat → Poll α}
  {a : α}

/-! ## Room enough -/

section Room

variable {m : Type → Type} [Monad m] {poll : Nat → m (Poll α)}

theorem pollFrom_of_late (late : timeout < elapsed) :
    pollFrom timeout interval poll (limit + 1) k elapsed = pure (.timedOut k) := by
  rw [pollFrom, if_pos late]

/-- Limits that reach beyond the timeout make no difference, whatever the polls do. -/
theorem pollFrom_limit (room : timeout < elapsed + limit * interval)
    (room' : timeout < elapsed + more * interval) :
    pollFrom timeout interval poll (limit + 1) k elapsed =
      pollFrom timeout interval poll (more + 1) k elapsed := by
  induction limit generalizing more k elapsed with
  | zero =>
    have late : timeout < elapsed := by omega
    rw [pollFrom_of_late late, pollFrom_of_late late]
  | succ limit ih =>
    by_cases late : timeout < elapsed
    · rw [pollFrom_of_late late, pollFrom_of_late late]
    · cases more with
      | zero => omega
      | succ more =>
        rw [Nat.succ_mul] at room room'
        rw [pollFrom, pollFrom, if_neg late, if_neg late]
        refine congrArg (poll k >>= ·) (funext fun p => ?_)
        cases p.finding.value? with
        | some a => rfl
        | none => exact ih (by omega) (by omega)

/-- The look at the clock that follows the last poll finds the timeout over. -/
theorem lt_room (positive : 0 < interval) (timeout : Nat) :
    timeout < (timeout / interval + 1) * interval :=
  Nat.mul_comm interval _ ▸ Nat.lt_mul_div_succ timeout positive

/-- There is room for all polls that can be made: with any larger limit it is the same wait. -/
theorem pollFrom_eq_pollUntil (positive : 0 < interval) (room : timeout / interval + 2 ≤ limit) :
    pollFrom timeout interval poll limit 0 0 = pollUntil timeout interval poll := by
  obtain ⟨more, rfl⟩ := Nat.exists_eq_add_of_le' room
  have hroom := lt_room positive timeout
  have hmore : (timeout / interval + 1) * interval ≤
      (more + (timeout / interval + 1)) * interval := Nat.mul_le_mul_right _ (by omega)
  show pollFrom timeout interval poll (more + (timeout / interval + 1) + 1) 0 0 = _
  exact pollFrom_limit (by omega) (by omega)

/-- Waiting by polls out of a list is waiting by the polls that the list stands for. -/
theorem follow_eq_pollUntil (positive : 0 < interval) (polls : List (Poll α)) :
    follow timeout interval polls =
      Id.run (pollUntil timeout interval fun k => pure (scripted polls k)) := by
  have hdiv := Nat.div_le_self timeout interval
  exact congrArg Id.run (pollFrom_eq_pollUntil positive (by omega))

end Room

/-! ## The schedule -/

/-- When each poll of a script starts: the first one at once, and any other one an interval after
the end of the one before. -/
def startOf (interval : Nat) (script : Nat → Poll α) : Nat → Nat
  | 0 => 0
  | k + 1 => startOf interval script k + (script k).millis + interval

theorem mul_le_startOf (interval : Nat) (script : Nat → Poll α) (k : Nat) :
    k * interval ≤ startOf interval script k := by
  induction k with
  | zero => omega
  | succ k ih =>
    rw [startOf, Nat.succ_mul]
    omega

theorem startOf_mono (interval : Nat) (script : Nat → Poll α) {j k : Nat} (h : k ≤ j) :
    startOf interval script k ≤ startOf interval script j := by
  induction h with
  | refl => exact Nat.le_refl _
  | step _ ih =>
    rw [startOf]
    omega

/-- The poll is the first of a script that finds something. -/
structure FirstReady (script : Nat → Poll α) (k : Nat) (a : α) : Prop where
  ready : (script k).finding = .ready a
  earlier : ∀ j < k, ∀ b, (script j).finding ≠ .ready b

theorem FirstReady.unique {j : Nat} {b : α} (h : FirstReady script k a)
    (h' : FirstReady script j b) : k = j ∧ a = b := by
  have hnot : ¬k < j := fun hlt => h'.earlier k hlt a h.ready
  have hnot' : ¬j < k := fun hlt => h.earlier j hlt b h'.ready
  obtain rfl : k = j := by omega
  have hsame := h.ready.symm.trans h'.ready
  exact ⟨rfl, Finding.ready.inj hsame⟩

theorem value?_eq_some {f : Finding α} : f.value? = some a ↔ f = .ready a := by
  cases f <;> simp [Finding.value?]

theorem value?_eq_none {f : Finding α} : f.value? = none ↔ ∀ b, f ≠ .ready b := by
  cases f <;> simp [Finding.value?]

/-- How waiting by a script ends, after how many polls: with the first poll that finds something,
or at the first one that would start too late. -/
inductive Ends (timeout interval : Nat) (script : Nat → Poll α) : Nat → Ending α → Prop where
  | ready {k : Nat} {a : α} (first : FirstReady script k a)
      (inTime : startOf interval script k ≤ timeout) :
    Ends timeout interval script (k + 1) (.ready a (k + 1))
  | timedOut {n : Nat} (nothing : ∀ j < n, ∀ b, (script j).finding ≠ .ready b)
      (inTime : ∀ j < n, startOf interval script j ≤ timeout)
      (late : timeout < startOf interval script n) : Ends timeout interval script n (.timedOut n)

/-- With a positive interval the time runs out sooner or later, so that there is an end. -/
theorem exists_ends (positive : 0 < interval) (timeout : Nat) (script : Nat → Poll α) :
    ∃ n ending, Ends timeout interval script n ending := by
  let Stops (k : Nat) : Prop :=
    (∃ b, (script k).finding = .ready b) ∨ timeout < startOf interval script k
  have hstops : ∃ k, Stops k := by
    refine ⟨timeout + 1, .inr ?_⟩
    have hstart := mul_le_startOf interval script (timeout + 1)
    have hmul := Nat.le_mul_of_pos_right (timeout + 1) positive
    omega
  classical
  obtain ⟨k, hk, hleast⟩ : ∃ k, Stops k ∧ ∀ j < k, ¬Stops j :=
    ⟨Nat.find hstops, Nat.find_spec hstops, fun _ => Nat.find_min hstops⟩
  have nothing : ∀ j < k, ∀ b, (script j).finding ≠ .ready b :=
    fun j hj b hb => hleast j hj (.inl ⟨b, hb⟩)
  have inTime : ∀ j < k, startOf interval script j ≤ timeout :=
    fun j hj => Nat.not_lt.1 fun hlate => hleast j hj (.inr hlate)
  by_cases late : timeout < startOf interval script k
  · exact ⟨k, _, .timedOut nothing inTime late⟩
  · obtain ⟨b, hb⟩ := hk.resolve_right late
    exact ⟨k + 1, _, .ready ⟨hb, nothing⟩ (Nat.not_lt.1 late)⟩

namespace Ends

variable {ending : Ending α}

theorem inTime (h : Ends timeout interval script n ending) (hk : k < n) :
    startOf interval script k ≤ timeout := by
  cases h with
  | ready _ inTime =>
    exact Nat.le_trans (startOf_mono interval script (Nat.le_of_lt_succ hk)) inTime
  | timedOut _ inTime => exact inTime k hk

theorem pos (h : Ends timeout interval script n ending) : 1 ≤ n := by
  cases h with
  | ready => omega
  | timedOut _ _ late =>
    cases n with
    | zero => exact absurd late (Nat.not_lt_zero _)
    | succ n => omega

/-- At most one poll starts in each interval up to the timeout. -/
theorem le_div (positive : 0 < interval) (h : Ends timeout interval script n ending) :
    n ≤ timeout / interval + 1 := by
  have hpos := h.pos
  have hlast : startOf interval script (n - 1) ≤ timeout := h.inTime (by omega)
  have hmul := mul_le_startOf interval script (n - 1)
  have hdiv : n - 1 ≤ timeout / interval := (Nat.le_div_iff_mul_le positive).2 (by omega)
  omega

end Ends

/-! ## Polls that are alike -/

/-- Polls that last equally long, and find the same if one of them finds something. A poll that
fails is like one that finds nothing. -/
structure Alike (p q : Poll α) : Prop where
  millis : p.millis = q.millis
  ready : ∀ a, p.finding = .ready a ↔ q.finding = .ready a

theorem Alike.refl (p : Poll α) : Alike p p := ⟨rfl, fun _ => Iff.rfl⟩

theorem startOf_congr (alike : ∀ k, Alike (script k) (script' k)) (k : Nat) :
    startOf interval script k = startOf interval script' k := by
  induction k with
  | zero => rfl
  | succ k ih => rw [startOf, startOf, ih, (alike k).millis]

theorem Ends.of_alike (alike : ∀ k, Alike (script k) (script' k)) {ending : Ending α}
    (h : Ends timeout interval script n ending) : Ends timeout interval script' n ending := by
  cases h with
  | ready first inTime =>
    have earlier := fun j hj b hb => first.earlier j hj b (((alike j).ready b).2 hb)
    exact .ready ⟨((alike _).ready _).1 first.ready, earlier⟩ (startOf_congr alike _ ▸ inTime)
  | timedOut nothing inTime late =>
    refine .timedOut (fun j hj b hb => ?_) (fun j hj => ?_) (startOf_congr alike n ▸ late)
    · exact nothing j hj b (((alike j).ready b).2 hb)
    · exact startOf_congr alike j ▸ inTime j hj

/-! ## The run -/

section Run

variable {m : Type → Type} [Monad m] {effect : Nat → m Unit}

/-- The polls of a script, each with an effect of its own. -/
def played (effect : Nat → m Unit) (script : Nat → Poll α) (k : Nat) : m (Poll α) := do
  effect k
  return script k

variable [LawfulMonad m]

/-- A poll that finds nothing is followed by the next one, an interval after its end. -/
theorem pollFrom_of_nothing (effect : Nat → m Unit) (limit : Nat)
    (inTime : startOf interval script k ≤ timeout)
    (nothing : ∀ b, (script k).finding ≠ .ready b) :
    pollFrom timeout interval (played effect script) (limit + 1) k (startOf interval script k) =
      effect k >>= fun _ => pollFrom timeout interval (played effect script) limit (k + 1)
        (startOf interval script (k + 1)) := by
  rw [pollFrom, if_neg (Nat.not_lt.2 inTime)]
  simp only [played, bind_assoc, pure_bind, value?_eq_none.2 nothing]
  rfl

theorem pollFrom_of_ready (effect : Nat → m Unit) (limit : Nat)
    (inTime : startOf interval script k ≤ timeout)
    (ready : (script k).finding = .ready a) :
    pollFrom timeout interval (played effect script) (limit + 1) k (startOf interval script k) =
      effect k >>= fun _ => pure (.ready a (k + 1)) := by
  rw [pollFrom, if_neg (Nat.not_lt.2 inTime)]
  simp only [played, bind_assoc, pure_bind, value?_eq_some.2 ready]

/-- As long as the polls start in time and find nothing, they are made one after the other. -/
theorem pollFrom_passes (effect : Nat → m Unit) {limit rest : Nat} (room : limit = rest + k)
    (inTime : ∀ j < k, startOf interval script j ≤ timeout)
    (nothing : ∀ j < k, ∀ b, (script j).finding ≠ .ready b) :
    pollFrom timeout interval (played effect script) limit 0 0 =
      forM (List.range k) effect >>= fun _ =>
        pollFrom timeout interval (played effect script) rest k (startOf interval script k) := by
  induction k generalizing rest with
  | zero =>
    rw [List.range_zero, List.forM_nil, pure_bind, room]
    rfl
  | succ k ih =>
    have hroom : limit = rest + 1 + k := by omega
    have hfirst := ih hroom (fun j hj => inTime j (by omega)) fun j hj => nothing j (by omega)
    have hlast := pollFrom_of_nothing effect rest (inTime k (Nat.lt_succ_self k))
      (nothing k (Nat.lt_succ_self k))
    rw [hfirst, hlast, List.range_succ, List.forM_append]
    simp only [List.forM_cons, List.forM_nil, bind_assoc, pure_bind]

/-- The polls up to the end are made, in order, and no other. -/
theorem pollUntil_played (positive : 0 < interval) {ending : Ending α}
    (h : Ends timeout interval script n ending) :
    pollUntil timeout interval (played effect script) =
      forM (List.range n) effect >>= fun _ => pure ending := by
  have hcount := h.le_div positive
  cases h with
  | @ready k a first inTime =>
    have room : timeout / interval + 2 = timeout / interval + 1 - k + 1 + k := by omega
    have before : ∀ j < k, startOf interval script j ≤ timeout :=
      fun j hj => Nat.le_trans (startOf_mono interval script (Nat.le_of_lt hj)) inTime
    have hpasses := pollFrom_passes effect room before first.earlier
    have hlast := pollFrom_of_ready effect (timeout / interval + 1 - k) inTime first.ready
    rw [pollUntil, hpasses, hlast, List.range_succ, List.forM_append]
    simp only [List.forM_cons, List.forM_nil, bind_assoc, pure_bind]
  | timedOut nothing inTime late =>
    have room : timeout / interval + 2 = timeout / interval + 1 - n + 1 + n := by omega
    have hpasses := pollFrom_passes effect room inTime nothing
    rw [pollUntil, hpasses, pollFrom_of_late late]

end Run

/-- Waiting makes the first polls of a script, in order, and no other: at least one, none that would
start after the timeout, and so at most one for each interval up to it and one more. If the first
poll that finds something starts in time, it is the last one and its value is the answer, however
long it takes. Else the answer is the message about the timeout, as soon as a poll would start too
late. A poll that fails is as good as one that finds nothing. And whatever the polls do, a larger
limit on their number would make no difference, so the wait ends of its own accord. -/
theorem waits_on_schedule (positive : 0 < interval) (timeout : Nat) (description : String)
    (script : Nat → Poll α) : ∃ n answer,
      (∀ (m : Type → Type) [Monad m] [LawfulMonad m] (effect : Nat → m Unit)
        (script' : Nat → Poll α), (∀ k, Alike (script k) (script' k)) →
          waitFor description timeout interval (played effect script') =
            forM (List.range n) effect >>= fun _ => pure answer) ∧
      (∀ k a, FirstReady script k a → startOf interval script k ≤ timeout →
        n = k + 1 ∧ answer = .ok a) ∧
      ((∀ k a, FirstReady script k a → timeout < startOf interval script k) →
        timeout < startOf interval script n ∧
          answer = .error (timeoutMessage timeout description)) ∧
      (∀ k < n, startOf interval script k ≤ timeout) ∧ 1 ≤ n ∧ n ≤ timeout / interval + 1 ∧
      ∀ (m : Type → Type) [Monad m] (poll : Nat → m (Poll α)) (limit : Nat),
        timeout / interval + 2 ≤ limit →
          pollFrom timeout interval poll limit 0 0 = pollUntil timeout interval poll := by
  obtain ⟨n, ending, ends⟩ := exists_ends positive timeout script
  refine ⟨n, ending.result timeout description, fun m _ _ effect script' alike => ?_,
    fun k a first inTime => ?_, fun late => ?_, fun k hk => ends.inTime hk, ends.pos,
    ends.le_div positive, fun m _ poll limit room => pollFrom_eq_pollUntil positive room⟩
  · rw [waitFor, pollUntil_played positive (ends.of_alike alike), bind_assoc]
    simp only [pure_bind]
  · cases ends with
    | ready first' =>
      obtain ⟨rfl, rfl⟩ := first.unique first'
      exact ⟨rfl, rfl⟩
    | timedOut nothing _ late =>
      have hlater : ¬k < n := fun hk => nothing k hk a first.ready
      have hstart := startOf_mono interval script (Nat.not_lt.1 hlater)
      omega
  · cases ends with
    | ready first inTime => exact absurd (late _ _ first) (Nat.not_lt.2 inTime)
    | timedOut _ _ late => exact ⟨late, rfl⟩

/-- A poll that fails, one that finds nothing, and one that starts at the last moment and takes its
time. -/
def lastMoment : Nat → Poll Nat
  | 0 => ⟨.failed "unreachable", 500⟩
  | 1 => ⟨.notReady, 500⟩
  | _ => ⟨.ready 7, 10000⟩

theorem waits_on_schedule_last_moment : 0 < 1500 ∧ startOf 1500 lastMoment 2 = 4000 ∧
    (waitFor "it" 4000 1500 (played (fun k => modify (· ++ [k])) lastMoment) :
      StateM (List Nat) (Except String Nat)).run [] = (.ok 7, [0, 1, 2]) := by
  obtain ⟨n, answer, runs, ready, _⟩ :=
    waits_on_schedule (show 0 < 1500 by decide) 4000 "it" lastMoment
  have first : FirstReady lastMoment 2 7 := by
    refine ⟨rfl, fun j hj b hb => ?_⟩
    match j, hj with
    | 0, _ => cases hb
    | 1, _ => cases hb
  obtain ⟨rfl, rfl⟩ := ready 2 7 first (by decide)
  rw [runs (StateM (List Nat)) _ lastMoment fun k => .refl _]
  exact ⟨by decide, rfl, rfl⟩

end PreviewControl.Wait
