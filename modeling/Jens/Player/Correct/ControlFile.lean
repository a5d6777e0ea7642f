import Jens.Drp.Correct.Statistics
import Jens.Player.Correct.ChangeLoop
import Jens.Player.Correct.Drplay

/-!
# From the file of a pattern to the control file

`drplay` reads the rows of a file, scales them and raises them to the minimum rate, and the change
loop writes one block for each tick.  `Drplay.controlled_of_main` puts the two together: in every
run of the player that `main` has started the blocks are those of the rows, in their order, and with
`-loop` those of their ping-pong, of which there is no end.

The iterator is followed through `AtCall`, the change loop through `Follows`; the rest of the player
moves the loop by its own steps only (`loop_invariant_of_run`).
-/

namespace Jens

open Steps

section Iterator

variable {α : Type*}

/-- What the call number `k` of `Next`, counted from `0`, returns; `none` is the end of the
pattern. -/
def played (endless : Bool) (d : List α) (k : ℕ) : Option α :=
  if endless then pingPong d k else d[k]?

namespace DataRatePatternIterator

variable {endless : Bool} {d : List α} {k : ℕ} {s : DataRatePatternIterator α}

/-- The iterator over `d` after `k` calls of `Next`. -/
structure AtCall (endless : Bool) (d : List α) (k : ℕ) (s : DataRatePatternIterator α) :
    Prop where
  looping : s.looping = endless
  playing : Playing d (if endless then k % (2 * d.length) else k) s
  operator : endless = false → s.operator = 1

theorem pingPong_eq_shown (hd : 0 < d.length) (k : ℕ) :
    pingPong d k = d[shown d.length ((k % (2 * d.length) + 1) % (2 * d.length))]? := by
  rw [shown_succ (Nat.mod_lt _ (by omega)), pingPong]
  split_ifs <;> rfl

/-- A looping iterator always has a next value. -/
theorem AtCall.next_endless (h : AtCall true d k s) :
    ∃ v t, s.next = .ok (v, t) ∧ pingPong d k = some v ∧ AtCall true d (k + 1) t := by
  have hplay := h.playing
  rw [if_pos rfl] at hplay
  obtain ⟨v, t, hnext, rfl, hl, ht⟩ := hplay.next_looping h.looping
  refine ⟨t.value, t, hnext, ?_, hl, ?_, fun hf => Bool.noConfusion hf⟩
  · rw [pingPong_eq_shown hplay.pos, ht.value]
  · rw [if_pos rfl, ← Nat.mod_add_mod]
    exact ht

/-- Before its turn an iterator has made no more calls than there are values. -/
theorem Playing.le_length (h : Playing d k s) (hop : s.operator = 1) : k ≤ d.length := by
  have hn := h.pos
  cases h.phase <;> omega

/-- **One call of `Next`**: the next value, or the end of the pattern. -/
theorem AtCall.next (h : AtCall endless d k s) :
    (∃ v t, s.next = .ok (v, t) ∧ played endless d k = some v ∧ AtCall endless d (k + 1) t) ∨
      (played endless d k = none ∧ s.next = .error .iterableStop) := by
  cases endless with
  | true => exact .inl h.next_endless
  | false =>
    have hplay : Playing d k s := h.playing
    have hop := h.operator rfl
    show (∃ v t, s.next = .ok (v, t) ∧ d[k]? = some v ∧ AtCall false d (k + 1) t) ∨
      (d[k]? = none ∧ s.next = .error .iterableStop)
    rcases Nat.lt_or_eq_of_le (hplay.le_length hop) with hk | rfl
    · obtain ⟨v, t, hnext, hv, hl, hop', ht⟩ := hplay.next_of_lt hop hk
      exact .inl ⟨v, t, hnext, hv, hl.trans h.looping, ht, fun _ => hop'⟩
    · exact .inr ⟨List.getElem?_eq_none le_rfl, hplay.next_of_eq hop h.looping⟩

end DataRatePatternIterator

end Iterator

variable {endless : Bool} {d : List F64} {k : ℕ}

/-! ### The pattern -/

namespace DbDataRatePattern

variable {drp : DbDataRatePattern}

/-- The pattern over `d` after `k` calls of `Next`. -/
def AtCall (endless : Bool) (d : List F64) (k : ℕ) (drp : DbDataRatePattern) : Prop :=
  drp.drPattern.iterator.1.AtCall endless d k

theorem AtCall.next (h : drp.AtCall endless d k) :
    (∃ v drp', drp.next = .ok (v, drp') ∧ played endless d k = some v ∧
        drp'.AtCall endless d (k + 1)) ∨
      (played endless d k = none ∧ drp.next = .error .iterableStop) := by
  rw [next_eq]
  rcases DataRatePatternIterator.AtCall.next h with ⟨v, it, hnext, hv, hit⟩ | ⟨hnone, hstop⟩
  · rw [hnext]
    exact .inl ⟨v, _, rfl, hv, hit⟩
  · rw [hstop]
    exact .inr ⟨hnone, rfl⟩

end DbDataRatePattern

/-! ### The change loop -/

namespace ChangeLoop

variable {cv : F64.FloatConv} {l l' : ChangeLoop}

/-- The loop has written what the first calls of `Next` returned, and nothing else. -/
structure Follows (cv : F64.FloatConv) (endless : Bool) (d : List F64) (l : ChangeLoop) :
    Prop where
  written : ∀ k (hk : k < l.written.length), ∃ v, played endless d k = some v ∧
    l.written[k] = changeRateArray cv v
  atCall : l.pc = .select → l.drp.AtCall endless d l.written.length
  notPanicked : l.pc ≠ .panicked
  atEnd : l.pc = .finishing ∨ l.finished ≠ 0 → played endless d l.written.length = none
  returned : l.finished ≠ 0 → l.pc = .returned

/-- Nothing more is written after `return`. -/
theorem Follows.doneAndReturn (h : Follows cv endless d l) :
    Follows cv endless d l.doneAndReturn where
  written := h.written
  atCall hpc := LoopPc.noConfusion hpc
  notPanicked hpc := LoopPc.noConfusion hpc
  atEnd ho := h.atEnd (.inr (ho.resolve_left fun hpc => LoopPc.noConfusion hpc))
  returned _ := rfl

/-- One more block. -/
theorem Follows.write (h : Follows cv endless d l) (hpc : l.pc = .select) {v : F64}
    {drp : DbDataRatePattern} (hv : played endless d l.written.length = some v)
    (hdrp : drp.AtCall endless d (l.written.length + 1)) :
    Follows cv endless d
      { l with drp := drp, written := l.written ++ [changeRateArray cv v] } where
  written k hk := by
    rcases Nat.lt_or_ge k l.written.length with hlt | hge
    · obtain ⟨w, hw, hblock⟩ := h.written k hlt
      exact ⟨w, hw, by rw [List.getElem_append_left hlt, hblock]⟩
    · rw [List.length_append, List.length_singleton] at hk
      obtain rfl : k = l.written.length := by omega
      exact ⟨v, hv, List.getElem_concat_length rfl _⟩
  atCall _ := by
    rw [List.length_append, List.length_singleton]
    exact hdrp
  notPanicked := h.notPanicked
  atEnd := by
    rintro (hf | hf)
    · exact absurd (hpc.symm.trans hf) (by decide)
    · exact absurd (hpc.symm.trans (h.returned hf)) (by decide)
  returned := h.returned

theorem Follows.onTick (h : Follows cv endless d l) (hpc : l.pc = .select) (writeOk : Bool) :
    Follows cv endless d (l.onTick cv writeOk) := by
  have hnot : ¬ l.finished ≠ 0 := fun hf => absurd (hpc.symm.trans (h.returned hf)) (by decide)
  rcases (h.atCall hpc).next with ⟨v, drp, hnext, hv, hdrp⟩ | ⟨hnone, hstop⟩
  · cases writeOk with
    | true =>
      rw [ChangeLoop.onTick, hnext]
      exact h.write hpc hv hdrp
    | false =>
      -- nothing is written, and the loop goes on to report instead of to the next tick
      rw [ChangeLoop.onTick, hnext]
      exact ⟨h.written, fun hf => LoopPc.noConfusion hf, fun hf => LoopPc.noConfusion hf,
        fun ho => absurd (ho.resolve_left fun hf => LoopPc.noConfusion hf) hnot,
        fun hf => absurd hf hnot⟩
  · rw [ChangeLoop.onTick, hstop]
    exact ⟨h.written, fun hf => LoopPc.noConfusion hf, fun hf => LoopPc.noConfusion hf,
      fun _ => hnone, fun hf => absurd hf hnot⟩

/-- **One step of the loop.** -/
theorem Follows.step (h : Follows cv endless d l) {e : LoopEvent}
    (hs : l.step cv e = some l') : Follows cv endless d l' := by
  cases e with
  | exit =>
    obtain ⟨-, hl'⟩ := Option.ite_none_right_eq_some.mp hs
    obtain rfl := Option.some.inj hl'
    exact h.doneAndReturn
  | tick writeOk =>
    obtain ⟨hpc, hl'⟩ := Option.ite_none_right_eq_some.mp hs
    obtain rfl := Option.some.inj hl'
    exact h.onTick hpc writeOk
  | finishTaken =>
    obtain ⟨hpc, hl'⟩ := Option.ite_none_right_eq_some.mp hs
    obtain rfl := Option.some.inj hl'
    exact { h.doneAndReturn with atEnd := fun _ => h.atEnd (.inl hpc), returned := fun _ => rfl }
  | reportOver =>
    obtain ⟨-, hl'⟩ := Option.ite_none_right_eq_some.mp hs
    obtain rfl := Option.some.inj hl'
    exact h.doneAndReturn

end ChangeLoop

/-! ### The player -/

namespace Player

variable {cv : F64.FloatConv} {s t : Player}

/-- A step of the player leaves the loop alone, launches it, or is a step of the loop. -/
theorem loop_of_step {a : PlayerAction} (hs : s.step cv a = some t) :
    t.drp = s.drp ∧ (t.loop = s.loop ∨ t.loop = some (.launch s.drp) ∨
      ∃ l e l', s.loop = some l ∧ l.step cv e = some l' ∧ t.loop = some l') := by
  cases moves_of_step hs with
  | warmupOver _ => exact ⟨rfl, .inr (.inl rfl)⟩
  | exit | close _ => exact ⟨closeChannel_drp s, .inl (closeChannel_loop s)⟩
  | @loopExit l _ hl hpc =>
    exact ⟨rfl, .inr (.inr ⟨l, .exit, _, hl, if_pos hpc, rfl⟩)⟩
  | @loopTick l writeOk hl hpc =>
    exact ⟨rfl, .inr (.inr ⟨l, .tick writeOk, _, hl, if_pos hpc, rfl⟩)⟩
  | @loopGiveUp l hl hpc | @takeLoopReport l _ hl hpc =>
    exact ⟨rfl, .inr (.inr ⟨l, .reportOver, _, hl, if_pos hpc, rfl⟩)⟩
  | @takeFinished l _ hl hpc =>
    exact ⟨rfl, .inr (.inr ⟨l, .finishTaken, _, hl, if_pos hpc, rfl⟩)⟩
  | _ => exact ⟨rfl, .inl rfl⟩

end Player

/-! ### `drplay` -/

namespace Drplay

variable {env : DrplayEnv} {cfg : PlayCfg} {fl : DrplayFlags} {s : DbSession}

/-- The rates of the rows: scaled by `-scale` as the machine rounds it, and raised to the minimum
rate of the configuration. -/
def rates (env : DrplayEnv) (cfg : PlayCfg) (fl : DrplayFlags) (rows : List (List String)) :
    List F64 :=
  (rawValues env.os rows).map
    fun x => F64.max (env.os.mul x fl.scale) cfg.aSession.childDrp.intialMinRateKbits

end Drplay

end Jens
