import Jens.MeasureSession.Persistor
import Jens.Lib.Steps

/-!
# Which samples the persistor hands on

At every moment the samples enqueued are, in order, those handed to `persist` and those still in the
channel (`Conserved`).  What is left in the channel when the loop leaves stays there
(`not_nothingBehind_of_step`), so `Run` returns with everything handed on if and only if it took the
exit signal with no sample in the channel and none was put there afterwards (`delivered_iff`).  A
return because of the closed channel leaves nothing, hence without the exit signal nothing is lost
(`delivered_of_not_exit`); the branch of the exit signal does not look into the channel
(`exit_loses_sample`).
-/

namespace Jens

open Steps

namespace Persistor

/-! ### The step relations -/

/-- The steps of the loop. -/
inductive Moves (s : Persistor) : PersistorEvent → Persistor → Prop
  | persistence : s.pc = .start → Moves s (.persistence true) { s with pc := .select, db := true }
  | noPersistence : s.pc = .start → Moves s (.persistence false) { s with pc := .reportingStart }
  | reportedStart : s.pc = .reportingStart → Moves s .reported { s with pc := .select }
  | exit : s.pc = .select → Moves s .exit { s with pc := .closing }
  | tick : s.pc = .select → Moves s .tick { s with pc := .draining }
  | handed {x : Sample} : s.pc = .draining → x.isMeasure = true →
      Moves s (.recv x) { s with pc := .persisting, handed := s.handed ++ [x] }
  | unexpected {x : Sample} : s.pc = .draining → x.isMeasure = false →
      Moves s (.recv x) { s with pc := .reporting }
  | recvClosed : s.pc = .draining → Moves s .recvClosed { s with pc := .closing }
  | empty : s.pc = .draining → Moves s .empty { s with pc := .committing }
  | persisted {ok : Bool} {pc : PersistorPc} : s.pc = .persisting →
      pc = .panicked ∨ pc = .draining ∨ pc = .reporting →
      Moves s (.persisted ok) { s with pc := pc }
  | reported : s.pc = .reporting → Moves s .reported { s with pc := .draining }
  | commit {pc : PersistorPc} : s.pc = .committing → pc = .select ∨ pc = .panicked →
      Moves s .commit { s with pc := pc }
  | close {pc : PersistorPc} : s.pc = .closing → pc = .leaving ∨ pc = .panicked →
      Moves s .close { s with pc := pc }
  | done : s.pc = .leaving → Moves s .done { s with pc := .returned }

theorem moves_of_step {s t : Persistor} {e : PersistorEvent} (h : s.step e = some t) :
    Moves s e t := by
  unfold step at h
  split at h <;> rename_i hpc
  case h_13 => cases h
  all_goals obtain rfl := Option.some.inj h
  case h_1 ok =>
    cases ok with
    | false => exact .noPersistence hpc
    | true => exact .persistence hpc
  case h_2 => exact .reportedStart hpc
  case h_3 => exact .exit hpc
  case h_4 => exact .tick hpc
  case h_5 x =>
    split_ifs with hx
    · exact .handed hpc hx
    · exact .unexpected hpc (by simpa using hx)
  case h_6 => exact .recvClosed hpc
  case h_7 => exact .empty hpc
  case h_8 ok =>
    split_ifs
    · exact .persisted hpc (.inl rfl)
    · exact .persisted hpc (.inr (.inl rfl))
    · exact .persisted hpc (.inr (.inr rfl))
  case h_9 => exact .reported hpc
  case h_10 => exact .commit hpc (by split_ifs <;> simp)
  case h_11 => exact .close hpc (by split_ifs <;> simp)
  case h_12 => exact .done hpc

/-- The steps of the loop on its channel: a receive takes the head, nothing else touches it. -/
inductive Interacts {cap : ℕ} (s : Persistor) (exitPersistor : Bool) (samples : Chan Sample cap) :
    PersistorEvent → Persistor → Chan Sample cap → Prop
  | exit {t : Persistor} : exitPersistor = true → s.step .exit = some t →
      Interacts s exitPersistor samples .exit t samples
  | recv {t : Persistor} {x : Sample} {c : Chan Sample cap} : samples.buf = x :: c.buf →
      c.closed = samples.closed → s.step (.recv x) = some t →
      Interacts s exitPersistor samples (.recv x) t c
  | recvClosed {t : Persistor} : samples.buf = [] → samples.closed = true →
      s.step .recvClosed = some t → Interacts s exitPersistor samples .recvClosed t samples
  | other {t : Persistor} {e : PersistorEvent} : e ≠ .exit → (∀ x, e ≠ .recv x) → e ≠ .recvClosed →
      s.step e = some t → Interacts s exitPersistor samples e t samples

theorem interacts_of_interact {cap : ℕ} {s t : Persistor} {exitPersistor : Bool}
    {samples c : Chan Sample cap} {e : PersistorEvent}
    (h : s.interact exitPersistor samples e = some (t, c)) :
    Interacts s exitPersistor samples e t c := by
  unfold interact at h
  split at h
  -- the exit signal
  · rw [Option.ite_none_right_eq_some, Option.map_eq_some_iff] at h
    obtain ⟨hexit, s', hs', heq⟩ := h
    obtain ⟨rfl, rfl⟩ := Prod.mk.inj heq
    exact .exit hexit hs'
  -- a receive, of the value the channel holds first
  · rename_i x y samples' hrecv
    rw [Option.ite_none_right_eq_some, Option.map_eq_some_iff] at h
    obtain ⟨rfl, s', hs', heq⟩ := h
    obtain ⟨rfl, rfl⟩ := Prod.mk.inj heq
    obtain ⟨hbuf, hclosed⟩ := Chan.recv_eq_value hrecv
    exact .recv hbuf hclosed hs'
  · cases h
  -- a receive from the closed channel
  · rename_i hrecv
    obtain ⟨s', hs', heq⟩ := Option.map_eq_some_iff.mp h
    obtain ⟨rfl, rfl⟩ := Prod.mk.inj heq
    obtain ⟨hbuf, hclosed⟩ := Chan.recv_eq_closed hrecv
    exact .recvClosed hbuf hclosed hs'
  · cases h
  -- the channel found empty
  · obtain ⟨s', hs', heq⟩ := Option.map_eq_some_iff.mp h
    obtain ⟨rfl, rfl⟩ := Prod.mk.inj heq
    exact .other (by simp) (by simp) (by simp) hs'
  · cases h
  · rename_i hexit hrecv hclosed _ _ _ _
    obtain ⟨s', hs', heq⟩ := Option.map_eq_some_iff.mp h
    obtain ⟨rfl, rfl⟩ := Prod.mk.inj heq
    exact .other hexit hrecv hclosed hs'

/-- The samples among the values. -/
def measures (xs : List Sample) : List Sample := xs.filter Sample.isMeasure

/-- The value an event receives. -/
def receives : PersistorEvent → List Sample
  | .recv x => [x]
  | _ => []

/-- What `persist` is handed in a step: the sample that is received. -/
theorem handed_of_step {s t : Persistor} {e : PersistorEvent} (h : s.step e = some t) :
    t.handed = s.handed ++ measures (receives e) := by
  cases moves_of_step h with
  | handed _ hx => simp [measures, receives, hx]
  | unexpected _ hx => simp [measures, receives, hx]
  | _ => exact (List.append_nil _).symm

/-- Only the exit signal and the closed channel make the loop leave. -/
theorem left_of_step {s t : Persistor} {e : PersistorEvent} (h : s.step e = some t)
    (ht : t.left = true) : s.left = true ∨ e = .exit ∨ e = .recvClosed := by
  cases moves_of_step h with
  | exit _ => exact .inr (.inl rfl)
  | recvClosed _ => exact .inr (.inr rfl)
  | close hpc _ | done hpc => exact .inl (by simp [left, hpc])
  | persisted _ hpc | commit _ hpc =>
    rcases hpc with rfl | rfl | rfl <;> simp [left] at ht
  | _ => simp [left] at ht

/-- A loop that receives has not left, and does not leave. -/
theorem not_left_of_recv {s t : Persistor} {x : Sample} (h : s.step (.recv x) = some t) :
    s.left = false ∧ t.left = false := by
  cases moves_of_step h with
  | handed hpc _ | unexpected hpc _ => exact ⟨by rw [left, hpc], rfl⟩

/-- A loop that has left makes only its last steps, and unless it panics there it stays so. -/
theorem left_of_left {s t : Persistor} {e : PersistorEvent} (h : s.step e = some t)
    (hs : s.left = true) (ht : t.pc ≠ .panicked) : t.left = true ∧ e ≠ .exit ∧ e ≠ .recvClosed := by
  cases moves_of_step h with
  | close _ hpc =>
    rcases hpc with rfl | rfl
    · exact ⟨rfl, by simp, by simp⟩
    · exact absurd rfl ht
  | done _ => exact ⟨rfl, by simp, by simp⟩
  | persistence hpc | noPersistence hpc | reportedStart hpc | exit hpc | tick hpc | handed hpc _
  | unexpected hpc _ | recvClosed hpc | empty hpc | persisted hpc _ | reported hpc
  | commit hpc _ => simp [left, hpc] at hs

/-- A loop that has panicked makes no step. -/
theorem not_panicked_of_step {s t : Persistor} {e : PersistorEvent} (h : s.step e = some t) :
    s.pc ≠ .panicked := by
  intro hpc
  unfold step at h
  rw [hpc] at h
  cases h

end Persistor

namespace PersistorSystem

variable {cap : ℕ}

/-! ### The invariant -/

/-- What was enqueued is what was handed on, followed by what is in the channel. -/
def Conserved (s : PersistorSystem cap) : Prop :=
  Persistor.measures s.enqueued = s.persistor.handed ++ Persistor.measures s.samples.buf

theorem Conserved.step {s t : PersistorSystem cap} {a : PersistorAction} (h : Conserved s)
    (hs : s.step a = some t) : Conserved t := by
  unfold Conserved Persistor.measures at h ⊢
  cases a with
  | enqueue x =>
    simp only [PersistorSystem.step] at hs
    split at hs
    · rename_i samples hsend
      obtain rfl := Option.some.inj hs
      obtain ⟨-, -, hbuf, -⟩ := Chan.send_eq_sent hsend
      rw [hbuf, List.filter_append, List.filter_append, h, List.append_assoc]
    · cases hs
  | handOver x =>
    simp only [PersistorSystem.step, Option.ite_none_right_eq_some, Option.map_eq_some_iff] at hs
    obtain ⟨⟨-, hbuf⟩, p, hp, rfl⟩ := hs
    -- nothing is in the channel before the sample that is handed over
    rw [hbuf, List.filter_nil, List.append_nil] at h
    rw [Persistor.handed_of_step hp, hbuf, List.filter_nil, List.append_nil, List.filter_append, h]
    rfl
  | closeSamples =>
    obtain ⟨samples, hclose, rfl⟩ := Option.map_eq_some_iff.mp hs
    obtain ⟨-, hbuf, -⟩ := Chan.close_eq_some hclose
    rwa [hbuf]
  | exit =>
    simp only [PersistorSystem.step] at hs
    split_ifs at hs
    obtain rfl := Option.some.inj hs
    exact h
  | run e =>
    obtain ⟨⟨p, c⟩, hint, rfl⟩ := Option.map_eq_some_iff.mp hs
    cases Persistor.interacts_of_interact hint with
    | exit _ hp | recvClosed _ _ hp =>
      rw [Persistor.handed_of_step hp]
      simpa [Persistor.receives, Persistor.measures] using h
    | @recv _ x _ hbuf _ hp =>
      -- the head of the channel becomes the last of those handed on
      rw [Persistor.handed_of_step hp, h, hbuf, List.append_assoc, Persistor.measures,
        ← List.filter_append]
      rfl
    | other _ hrecv _ hp =>
      have hnone : Persistor.receives e = [] := by
        cases e with
        | recv x => exact absurd rfl (hrecv x)
        | _ => rfl
      rw [Persistor.handed_of_step hp, hnone]
      simpa [Persistor.measures] using h

theorem conserved_of_run {acts : List PersistorAction} {s : PersistorSystem cap}
    (hrun : run step init acts = some s) : Conserved s := by
  have hinit : Conserved (init : PersistorSystem cap) := rfl
  refine run_invariant (I := Conserved) ?_ hinit hrun
  intro s a s' hi hs
  exact hi.step hs

/-! ### When `Run` returns -/

/-- **Delivery.**  Every sample enqueued so far has been handed to `persist` once, in order. -/
def Delivered (s : PersistorSystem cap) : Prop := s.persistor.handed = Persistor.measures s.enqueued

/-- The loop has not left, or no sample is left behind in the channel. -/
def NothingBehind (s : PersistorSystem cap) : Prop :=
  s.persistor.left = true → Persistor.measures s.samples.buf = []

/-- **The condition on a step.**  The loop takes the exit signal only when no sample is in the
channel, and no sample is put there after the loop has left. -/
def drained (s : PersistorSystem cap) : PersistorAction → Bool
  | .run .exit => (Persistor.measures s.samples.buf).isEmpty
  | .enqueue x => !s.persistor.left || !x.isMeasure
  | _ => true

/-- A step leaves a sample behind exactly if it does not meet the condition. -/
theorem nothingBehind_iff_drained {s t : PersistorSystem cap} {a : PersistorAction}
    (h : NothingBehind s) (hs : s.step a = some t) : NothingBehind t ↔ drained s a := by
  cases a with
  | enqueue x =>
    simp only [PersistorSystem.step] at hs
    split at hs
    · rename_i samples hsend
      obtain rfl := Option.some.inj hs
      obtain ⟨-, -, hbuf, -⟩ := Chan.send_eq_sent hsend
      show (s.persistor.left = true → Persistor.measures samples.buf = []) ↔ _
      cases hleft : s.persistor.left with
      | false => simp [drained, hleft]
      | true =>
        have hnil := h hleft
        unfold Persistor.measures at hnil
        rw [hbuf, Persistor.measures, List.filter_append, hnil]
        simp [drained, hleft]
    · cases hs
  | handOver x =>
    simp only [PersistorSystem.step, Option.ite_none_right_eq_some, Option.map_eq_some_iff] at hs
    obtain ⟨-, p, hp, rfl⟩ := hs
    have hin := (Persistor.not_left_of_recv hp).2
    simp [NothingBehind, drained, hin]
  | closeSamples =>
    obtain ⟨samples, hclose, rfl⟩ := Option.map_eq_some_iff.mp hs
    obtain ⟨-, hbuf, -⟩ := Chan.close_eq_some hclose
    refine iff_of_true (fun hleft => ?_) rfl
    rw [hbuf]
    exact h hleft
  | exit =>
    simp only [PersistorSystem.step] at hs
    split_ifs at hs
    obtain rfl := Option.some.inj hs
    exact iff_of_true h rfl
  | run e =>
    obtain ⟨⟨p, c⟩, hint, rfl⟩ := Option.map_eq_some_iff.mp hs
    cases Persistor.interacts_of_interact hint with
    | exit _ hp =>
      -- the loop leaves now, and looks no further into the channel
      have hleft : p.left = true := by
        cases Persistor.moves_of_step hp
        rfl
      simp [NothingBehind, drained, hleft]
    | recvClosed hbuf _ _ =>
      refine iff_of_true (fun _ => ?_) rfl
      rw [hbuf]
      rfl
    | recv _ _ hp =>
      have hin := (Persistor.not_left_of_recv hp).2
      simp [NothingBehind, drained, hin]
    | other hne _ hne' hp =>
      have hcond : drained s (.run e) = true := by
        cases e with
        | exit => exact absurd rfl hne
        | _ => rfl
      refine iff_of_true (fun hleft => ?_) hcond
      rcases Persistor.left_of_step hp hleft with hl | he | he
      · exact h hl
      · exact absurd he hne
      · exact absurd he hne'

/-- What is left behind stays there, unless the loop panics. -/
theorem not_nothingBehind_of_step {s t : PersistorSystem cap} {a : PersistorAction}
    (h : ¬ NothingBehind s) (ht : t.persistor.pc ≠ .panicked) (hs : s.step a = some t) :
    ¬ NothingBehind t := by
  obtain ⟨hleft, hne⟩ := Classical.not_imp.mp h
  apply Classical.not_imp.mpr
  cases a with
  | enqueue x =>
    simp only [PersistorSystem.step] at hs
    split at hs
    · rename_i samples hsend
      obtain rfl := Option.some.inj hs
      obtain ⟨-, -, hbuf, -⟩ := Chan.send_eq_sent hsend
      refine ⟨hleft, fun hnil => hne ?_⟩
      rw [hbuf, Persistor.measures, List.filter_append, List.append_eq_nil_iff] at hnil
      exact hnil.1
    · cases hs
  | handOver x =>
    simp only [PersistorSystem.step, Option.ite_none_right_eq_some, Option.map_eq_some_iff] at hs
    obtain ⟨-, p, hp, rfl⟩ := hs
    simp [(Persistor.not_left_of_recv hp).1] at hleft
  | closeSamples =>
    obtain ⟨samples, hclose, rfl⟩ := Option.map_eq_some_iff.mp hs
    obtain ⟨-, hbuf, -⟩ := Chan.close_eq_some hclose
    exact ⟨hleft, by rwa [hbuf]⟩
  | exit =>
    simp only [PersistorSystem.step] at hs
    split_ifs at hs
    obtain rfl := Option.some.inj hs
    exact ⟨hleft, hne⟩
  | run e =>
    obtain ⟨⟨p, c⟩, hint, rfl⟩ := Option.map_eq_some_iff.mp hs
    cases Persistor.interacts_of_interact hint with
    | exit _ hp => exact absurd rfl (Persistor.left_of_left hp hleft ht).2.1
    | recvClosed _ _ hp => exact absurd rfl (Persistor.left_of_left hp hleft ht).2.2
    | recv _ _ hp => simp [(Persistor.not_left_of_recv hp).1] at hleft
    | other _ _ _ hp => exact ⟨(Persistor.left_of_left hp hleft ht).1, hne⟩

theorem not_panicked_of_step {s t : PersistorSystem cap} {a : PersistorAction}
    (hs : s.step a = some t) (ht : t.persistor.pc ≠ .panicked) : s.persistor.pc ≠ .panicked := by
  cases a with
  | enqueue x =>
    simp only [PersistorSystem.step] at hs
    split at hs
    · obtain rfl := Option.some.inj hs
      exact ht
    · cases hs
  | handOver x =>
    simp only [PersistorSystem.step, Option.ite_none_right_eq_some, Option.map_eq_some_iff] at hs
    obtain ⟨-, p, hp, rfl⟩ := hs
    exact Persistor.not_panicked_of_step hp
  | closeSamples =>
    obtain ⟨samples, -, rfl⟩ := Option.map_eq_some_iff.mp hs
    exact ht
  | exit =>
    simp only [PersistorSystem.step] at hs
    split_ifs at hs
    obtain rfl := Option.some.inj hs
    exact ht
  | run e =>
    obtain ⟨⟨p, c⟩, hint, rfl⟩ := Option.map_eq_some_iff.mp hs
    cases Persistor.interacts_of_interact hint with
    | exit _ hp | recv _ _ hp | recvClosed _ _ hp | other _ _ _ hp =>
      exact Persistor.not_panicked_of_step hp

/-- A run that leaves nothing behind is one whose steps all meet the condition. -/
theorem nothingBehind_of_run {acts : List PersistorAction} {s : PersistorSystem cap}
    (hrun : run step init acts = some s) (hs : s.persistor.pc ≠ .panicked) :
    NothingBehind s ↔
      StepsMeet step (fun s a => drained s a) (init : PersistorSystem cap) acts := by
  refine good_iff_stepsMeet (I := fun _ => True) (J := fun s => s.persistor.pc ≠ .panicked)
    (G := NothingBehind) (fun _ _ _ _ _ => trivial) ?_ ?_ ?_ trivial hs ?_ hrun
  · intro s a s' hstep hs'
    exact not_panicked_of_step hstep hs'
  · intro s a s' _ _ hg hstep
    exact nothingBehind_iff_drained hg hstep
  · intro s a s' _ hs' hbad hstep
    exact not_nothingBehind_of_step hbad hs' hstep
  · intro hleft
    cases hleft

/-- The step by which `Run` returns delivers exactly if nothing is left behind. -/
theorem delivered_of_return {s t : PersistorSystem cap} (hcons : Conserved s)
    (hret : s.step (.run .done) = some t) :
    s.persistor.pc = .leaving ∧ (Delivered t ↔ NothingBehind s) := by
  have hcons' := hcons.step hret
  obtain ⟨⟨p, c⟩, hint, rfl⟩ := Option.map_eq_some_iff.mp hret
  cases Persistor.interacts_of_interact hint with
  | other _ _ _ hp =>
    have hpc : s.persistor.pc = .leaving := by
      cases Persistor.moves_of_step hp with
      | done hpc => exact hpc
    have hleft : s.persistor.left = true := by rw [Persistor.left, hpc]
    refine ⟨hpc, ?_⟩
    -- the last step leaves the channel as it is, so conservation speaks of what is in it before
    unfold Conserved at hcons'
    rw [Delivered, hcons', List.self_eq_append_right, NothingBehind]
    exact ⟨fun hnil _ => hnil, fun hnil => hnil hleft⟩

/-- **A return has delivered everything exactly if the loop never left a sample behind**: the exit
signal was taken with no sample in the channel, and none was put there between that and the return.
The last action of the run is the one by which `Run` returns. -/
theorem delivered_iff (cap : ℕ) (acts : List PersistorAction) (s t : PersistorSystem cap)
    (hrun : run step init acts = some s) (hret : s.step (.run .done) = some t) :
    Delivered t ↔
      StepsMeet step (fun s a => drained s a) (init : PersistorSystem cap) acts := by
  obtain ⟨hpc, hdel⟩ := delivered_of_return (conserved_of_run hrun) hret
  rw [hdel, nothingBehind_of_run hrun (by simp [hpc])]

/-- A sample of a queue record. -/
def oneSample (time : UInt64) : Sample := .queue ⟨time, 0, 0, 1000, 1⟩

/-- Two samples, one of which is drained by a tick before the exit signal. -/
theorem delivered_iff_drained :
    ∃ s t : PersistorSystem 2, run step init
        [.run (.persistence true), .enqueue (oneSample 1), .run .tick, .run (.recv (oneSample 1)),
          .run (.persisted true), .run .empty, .run .commit, .exit, .run .exit, .run .close]
        = some s ∧ s.step (.run .done) = some t ∧
      (Delivered t ↔ StepsMeet step (fun s a => drained s a) (init : PersistorSystem 2)
        [.run (.persistence true), .enqueue (oneSample 1), .run .tick, .run (.recv (oneSample 1)),
          .run (.persisted true), .run .empty, .run .commit, .exit, .run .exit, .run .close]) :=
  ⟨_, _, rfl, rfl, delivered_iff 2
    [.run (.persistence true), .enqueue (oneSample 1), .run .tick, .run (.recv (oneSample 1)),
      .run (.persisted true), .run .empty, .run .commit, .exit, .run .exit, .run .close]
    _ _ rfl rfl⟩

/-- **A sample enqueued before the exit signal is lost.**  The outer `select` takes the exit signal
before the next tick. -/
theorem exit_loses_sample :
    ∃ s : PersistorSystem 2, run step init
        [.run (.persistence true), .enqueue (oneSample 1), .exit, .run .exit, .run .close,
          .run .done] = some s ∧
      s.persistor.pc = .returned ∧ s.enqueued = [oneSample 1] ∧ s.persistor.handed = [] ∧
      ¬ Delivered s :=
  ⟨_, rfl, rfl, rfl, rfl, fun h => List.cons_ne_nil _ _ (show [oneSample 1] = [] from h.symm)⟩

/-! ### A session without the exit signal -/

/-- Without the exit signal, a loop that leaves has met the closed channel. -/
def ClosedBehind (s : PersistorSystem cap) : Prop :=
  s.exitPersistor = false → s.persistor.left = true → s.samples.closed = true ∧ s.samples.buf = []

theorem ClosedBehind.step {s t : PersistorSystem cap} {a : PersistorAction} (h : ClosedBehind s)
    (hs : s.step a = some t) : ClosedBehind t := by
  intro hexit hleft
  cases a with
  | enqueue x =>
    simp only [PersistorSystem.step] at hs
    split at hs
    · rename_i samples hsend
      obtain rfl := Option.some.inj hs
      -- there is no send on the channel that has made the loop leave
      have hclosed := (h hexit hleft).1
      rw [(Chan.send_eq_sent hsend).1] at hclosed
      cases hclosed
    · cases hs
  | handOver x =>
    simp only [PersistorSystem.step, Option.ite_none_right_eq_some, Option.map_eq_some_iff] at hs
    obtain ⟨⟨hopen, -⟩, p, hp, rfl⟩ := hs
    simp [(Persistor.not_left_of_recv hp).2] at hleft
  | closeSamples =>
    obtain ⟨samples, hclose, rfl⟩ := Option.map_eq_some_iff.mp hs
    obtain ⟨-, hbuf, hclosed⟩ := Chan.close_eq_some hclose
    exact ⟨hclosed, by rw [hbuf]; exact (h hexit hleft).2⟩
  | exit =>
    simp only [PersistorSystem.step] at hs
    split_ifs at hs
    obtain rfl := Option.some.inj hs
    cases hexit
  | run e =>
    obtain ⟨⟨p, c⟩, hint, rfl⟩ := Option.map_eq_some_iff.mp hs
    cases Persistor.interacts_of_interact hint with
    | exit he _ =>
      rw [show s.exitPersistor = false from hexit] at he
      cases he
    | recvClosed hbuf hclosed _ => exact ⟨hclosed, hbuf⟩
    | recv _ _ hp => simp [(Persistor.not_left_of_recv hp).2] at hleft
    | other hne _ hne' hp =>
      rcases Persistor.left_of_step hp hleft with hl | he | he
      · exact h hexit hl
      · exact absurd he hne
      · exact absurd he hne'

/-- Without the exit signal nothing enqueued is lost, whatever the schedule. -/
theorem delivered_of_not_exit {acts : List PersistorAction} {s : PersistorSystem cap}
    (hrun : run step init acts = some s) (hret : s.persistor.pc = .returned)
    (hexit : s.exitPersistor = false) : Delivered s := by
  have hinit : ClosedBehind (init : PersistorSystem cap) := by
    intro _ hleft
    cases hleft
  have hbehind : ClosedBehind s := by
    refine run_invariant (I := ClosedBehind) ?_ hinit hrun
    intro s a s' hi hs
    exact hi.step hs
  have hbuf := (hbehind hexit (by rw [Persistor.left, hret])).2
  have hcons := conserved_of_run hrun
  unfold Conserved at hcons
  rw [Delivered, hcons, hbuf]
  exact (List.append_nil _).symm

end PersistorSystem

end Jens
