import PatchTrial.Proofs.Trial.Custody
import PatchTrial.Proofs.Trial.Termination

/-!
What the number of a group stands for. The machine gives a number away again once the leader of the
group has ended and was asked how, and no process of the group is left. From then on the number may
stand for another group, and the program is not told.

What is proved:
  1. `exists_gone`: once the leader was asked for, all others of a group may end too.
  2. `possible_reused_iff`: the number of a target's group may stand for another group exactly if
     the leader was asked how it ended, and had.
-/
namespace PatchTrial.Trial

/-- What the number of the group of a target stands for. -/
inductive Tenure
  /-- The group of the target; these are the processes. -/
  | own (w : World)
  /-- Another group, or soon another one. -/
  | reused

/-- The leader of the group was asked how it ended, and had. -/
def Tenure.IsAsked : Tenure → Prop
  | own w => w.reaped.isSome = true
  | reused => True

/-- A group was just made: only its leader is in it, which runs. -/
structure Fresh (group : Pid) (w : World) : Prop where
  unasked : w.reaped = none
  leader : w.IsMember group group
  alone : ∀ pid p, w.table pid = some p → p.group = group → pid = group

/-- What the number of a group may stand for, some exchanges after its leader was started. Between
two requests, processes of the group fork and end in any order, and the number may be given away. -/
inductive Possible (group : Pid) : Trace → Tenure → Prop
  | fresh {w : World} : Fresh group w → Possible group [] (.own w)
  | drift {since : Trace} {w w' : World} : Possible group since (.own w) → Drift group w w' →
    Possible group since (.own w')
  | reuse {since : Trace} {w : World} : Possible group since (.own w) → w.reaped.isSome = true →
    w.IsGone group → Possible group since .reused
  | exchange {since : Trace} {w w' : World} {r : Request} {reply : r.Reply} :
    Possible group since (.own w) → Replies group w r reply w' →
    Possible group (since ++ [⟨r, reply⟩]) (.own w')
  | later {since : Trace} {e : Exchange} : Possible group since .reused →
    Possible group (since ++ [e]) .reused

/-- Whether an exchange tells that the leader of a group has ended: its entry is given up then. -/
inductive Reaps (group : Pid) : Exchange → Prop
  | poll {status : ExitStatus} : Reaps group ⟨.poll group, .ok (some status)⟩
  | await {status : ExitStatus} : Reaps group ⟨.await group, .ok status⟩

/-- The group of the leader that an exchange tells to have ended. -/
def reaped? : Exchange → Option Pid
  | ⟨.poll group, .ok (some _)⟩ => some group
  | ⟨.await group, .ok _⟩ => some group
  | _ => none

variable {group : Pid} {w w' : World}

theorem reaps_iff {e : Exchange} : Reaps group e ↔ reaped? e = some group := by
  constructor
  · intro h
    cases h <;> rfl
  · intro h
    obtain ⟨r, reply⟩ := e
    cases r with
    | poll pid =>
      rcases reply with e | _ | status
      · cases h
      · cases h
      · cases h
        exact .poll
    | await pid =>
      cases reply with
      | ok status =>
        cases h
        exact .await
      | error e => cases h
    | _ => cases h

/-! ## The leader -/

theorem Polled.reaped {reply : Except IoError (Option ExitStatus)} (h : Polled group w reply w') :
    w'.reaped.isSome = true ↔ w.reaped.isSome = true ∨ ∃ status, reply = .ok (some status) := by
  cases h with
  | known known => simp [known]
  | ended => simp [World.reap]
  | running => simp
  | failed => simp

theorem Listed.reaped {reply : Except IoError (List Bytes)} (h : Listed group w reply w') :
    w'.reaped = w.reaped := by
  cases h with
  | names meanwhile all => exact meanwhile.later.reaped
  | failed => rfl

theorem Told.reaped {pid : Pid} {reply : Except IoError Bytes} (h : Told w pid reply w') :
    w'.reaped = w.reaped := by
  cases h <;> rfl

/-- The entry of the leader is given up by exactly the exchanges that tell of its end. -/
theorem Replies.reaped {r : Request} {reply : r.Reply} (h : Replies group w r reply w') :
    w'.reaped.isSome = true ↔ w.reaped.isSome = true ∨ Reaps group ⟨r, reply⟩ := by
  -- only a poll of the leader and a wait for it can tell how it ended
  have silent (same : w'.reaped = w.reaped) (other : ¬ Reaps group ⟨r, reply⟩) :
      w'.reaped.isSome = true ↔ w.reaped.isSome = true ∨ Reaps group ⟨r, reply⟩ := by
    rw [same, or_iff_left other]
  cases r with
  | poll pid =>
    by_cases leads : pid = group
    · subst leads
      rw [(replies_poll.1 h).reaped]
      refine or_congr_right ⟨fun ⟨status, e⟩ => e ▸ .poll, fun reaps => ?_⟩
      cases reaps
      exact ⟨_, rfl⟩
    · replace h : w' = w := (if_neg leads).mp h
      exact silent (h ▸ rfl) fun reaps => by cases reaps; exact leads rfl
  | await pid =>
    by_cases leads : pid = group
    · subst leads
      rw [(replies_await.1 h).reaped]
      refine or_congr_right ⟨fun ⟨status, e⟩ => ?_, fun reaps => ?_⟩
      · cases reply with
        | ok status => exact .await
        | error e' => cases e
      · cases reaps
        exact ⟨_, rfl⟩
    · replace h : w' = w := (if_neg leads).mp h
      exact silent (h ▸ rfl) fun reaps => by cases reaps; exact leads rfl
  | list path =>
    refine silent ?_ fun reaps => nomatch reaps
    by_cases roster : path = Roster.system.root
    · subst roster
      exact (replies_list.1 h).reaped
    · replace h : w' = w := (if_neg roster).mp h
      rw [h]
  | read path =>
    refine silent ?_ fun reaps => nomatch reaps
    rcases h with ⟨pid, -, told⟩ | ⟨-, rfl⟩
    · exact told.reaped
    · rfl
  | signalGroup other signal => exact silent (h.2 ▸ rfl) fun reaps => nomatch reaps
  | _ => exact silent (congrArg World.reaped h) fun reaps => nomatch reaps

theorem exists_mem_concat {α : Type} {P : α → Prop} {xs : List α} {a : α} :
    (∃ x ∈ xs ++ [a], P x) ↔ (∃ x ∈ xs, P x) ∨ P a := by
  simp only [List.mem_append, List.mem_singleton, or_and_right, exists_or, exists_eq_left]

variable {since : Trace} {tenure : Tenure}

/-- The exchanges show whether the leader was asked how it ended, and had. -/
theorem Possible.isAsked_iff (h : Possible group since tenure) :
    tenure.IsAsked ↔ ∃ e ∈ since, Reaps group e := by
  induction h with
  | fresh fresh => simp [Tenure.IsAsked, fresh.unasked]
  | drift _ drift ih =>
    -- only the program asks for the leader, so what happens in between does not matter
    rw [Tenure.IsAsked, drift.later.reaped]
    exact ih
  | reuse _ asked _ ih => exact iff_of_true trivial (ih.1 asked)
  | exchange _ replied ih =>
    exact replied.reaped.trans ((or_congr_left ih).trans exists_mem_concat.symm)
  | later _ ih => exact iff_of_true trivial (exists_mem_concat.2 (.inl (ih.1 trivial)))

/-! ## The others -/

/-- Once the leader was asked for, any one process of a group may end and vanish. -/
theorem exists_vanished (asked : w.reaped.isSome = true) (pid : Pid) :
    ∃ w', Drift group w w' ∧ w'.reaped = w.reaped ∧ w'.table pid = none ∧
      ∀ other, other ≠ pid → w'.table other = w.table other := by
  cases hp : w.table pid with
  | none => exact ⟨w, .refl w, rfl, hp, fun _ _ => rfl⟩
  | some p =>
    let ended : Process := { p with doing := .dead }
    have dies : Move group w (w.put pid ended (w.bounded hp)) :=
      .change hp (fun live => nomatch live) (.inl rfl)
    have goes : Move group (w.put pid ended (w.bounded hp))
        ((w.put pid ended (w.bounded hp)).remove pid) :=
      .vanish (w.put_self (w.bounded hp)) rfl fun _ => asked
    refine ⟨_, .head dies (.head goes (.refl _)), rfl, if_pos rfl, fun other hne => ?_⟩
    exact (if_neg hne).trans (w.put_other (w.bounded hp) hne)

/-- Once the leader was asked for, all others of a group may end too. -/
theorem exists_gone (asked : w.reaped.isSome = true) :
    ∃ w', Drift group w w' ∧ w'.reaped = w.reaped ∧ w'.IsGone group := by
  -- one number after another is emptied; that numbers are bounded makes this all of them
  have below (n : Nat) : ∃ w', Drift group w w' ∧ w'.reaped = w.reaped ∧
      ∀ pid < n, w'.table pid = none := by
    induction n with
    | zero => exact ⟨w, .refl w, rfl, fun pid h => absurd h (Nat.not_lt_zero pid)⟩
    | succ n ih =>
      obtain ⟨w₁, drift, same, empty⟩ := ih
      obtain ⟨w₂, drift', same', gone, others⟩ := exists_vanished (same ▸ asked) n
      refine ⟨w₂, drift.trans drift', same'.trans same, fun pid h => ?_⟩
      rcases Nat.lt_succ_iff_lt_or_eq.1 h with earlier | rfl
      · rw [others pid (Nat.ne_of_lt earlier), empty pid earlier]
      · exact gone
  obtain ⟨w', drift, same, empty⟩ := below (Roster.Entry.pidLimit + 1)
  refine ⟨w', drift, same, fun pid p hp => ?_⟩
  rw [empty pid (Nat.lt_succ_of_le (w'.bounded hp))] at hp
  cases hp

/-- If any course of events explains the replies, one in which the number of the target's group
stands for another group does exactly if the leader was asked how it ended, and had. -/
theorem possible_reused_iff (h : Possible group since tenure) :
    Possible group since .reused ↔ ∃ e ∈ since, Reaps group e := by
  constructor
  · exact fun reused => reused.isAsked_iff.1 trivial
  · intro asked
    cases tenure with
    | reused => exact h
    | own w =>
      have known := h.isAsked_iff.2 asked
      obtain ⟨w', drift, same, gone⟩ := exists_gone known
      exact .reuse (h.drift drift) (same ▸ known) gone

/-! ## A leader on its own -/

/-- Whether a request has any reply whatever the processes are, and changes nothing about them. -/
def isStill : Request → Bool
  | .poll _ | .await _ | .list _ | .signalGroup _ _ => false
  | .read path => !path.isAbsolute
  | _ => true

theorem replies_still {r : Request} (h : isStill r = true) (reply : r.Reply) (w : World) :
    Replies group w r reply w := by
  cases r with
  | poll | await | list | signalGroup => cases h
  | read path =>
    refine .inr ⟨fun pid e => ?_, rfl⟩
    have absolute : path.isAbsolute = true := by
      rw [e]
      exact Path.isAbsolute_child (Path.isAbsolute_child (by decide) _) _
    rw [isStill, absolute] at h
    cases h
  | _ => rfl

theorem Possible.still (h : Possible group since (.own w)) {more : Trace}
    (still : ∀ e ∈ more, isStill e.request = true) : Possible group (since ++ more) (.own w) := by
  refine grown (P := fun more => Possible group (since ++ more) (.own w)) still ?_ ?_
  · rwa [List.append_nil]
  · intro more e still earlier
    rw [← List.append_assoc]
    exact earlier.exchange (replies_still still e.reply w)

theorem Possible.afterwards (h : Possible group since .reused) (more : Trace) :
    Possible group (since ++ more) .reused := by
  induction more using List.reverseRecOn with
  | nil => rwa [List.append_nil]
  | append_singleton more e ih =>
    rw [← List.append_assoc]
    exact ih.later

/-- The leader of group 7 is the only process. -/
def alone (doing : Doing) : World where
  table pid := if pid = 7 then some (inGroup [] doing) else none
  bounded := by
    intro pid p hp
    by_cases leads : pid = 7
    · rw [leads]
      decide
    · rw [if_neg leads] at hp
      cases hp

theorem eq_of_alone {doing : Doing} {pid : Pid} {p : Process}
    (h : (alone doing).table pid = some p) : pid = 7 :=
  by_contra fun other => by cases (if_neg other).symm.trans h

theorem fresh_alone : Fresh 7 (alone .running) :=
  ⟨rfl, ⟨inGroup [] .running, rfl, rfl, rfl⟩, fun _ _ h _ => eq_of_alone h⟩

theorem drift_alone : Drift 7 (alone .running) (alone .zombie) := by
  have leader : (alone .running).table 7 = some (inGroup [] .running) := rfl
  have ends : Move 7 (alone .running)
      ((alone .running).put 7 (inGroup [] .zombie) ((alone .running).bounded leader)) :=
    .change leader (fun live => nomatch live) (.inl rfl)
  have same : (alone .running).put 7 (inGroup [] .zombie) ((alone .running).bounded leader) =
      alone .zombie := by
    have table : (fun other => if other = 7 then some (inGroup [] .zombie)
        else (alone .running).table other) = (alone .zombie).table := by
      funext other
      by_cases leads : other = 7
      · rw [leads]
        rfl
      · rw [if_neg leads]
        exact (if_neg leads).trans (if_neg leads).symm
    simp only [World.put, table]
    rfl
  exact .head (same ▸ ends) (.refl _)

/-- When a leader without others has ended and was asked for, its number may be given away. -/
theorem Possible.gone (h : Possible 7 since (.own (alone .running))) {e : Exchange}
    (reaps : Reaps 7 e) : Possible 7 (since ++ [e]) .reused := by
  have ended := h.drift drift_alone
  have asked (status : ExitStatus) :
      Polled 7 (alone .zombie) (.ok (some status)) ((alone .zombie).reap 7 status) :=
    .ended rfl (p := inGroup [] .zombie) rfl rfl
  have none (status : ExitStatus) : ((alone .zombie).reap 7 status).IsGone 7 := by
    intro pid p hp
    by_cases leads : pid = 7
    · cases (if_pos leads).symm.trans hp
    · exact absurd (eq_of_alone ((if_neg leads).symm.trans hp)) leads
  cases reaps with
  | @poll status => exact (ended.exchange (replies_poll.2 (asked status))).reuse rfl (none status)
  | @await status =>
    have replied : Replies 7 _ (.await 7) (.ok status) _ := replies_await.2 (asked status)
    exact (ended.exchange replied).reuse rfl (none status)

end PatchTrial.Trial
