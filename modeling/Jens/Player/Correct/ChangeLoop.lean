import Jens.Player.Correct.Player
import Jens.Drp.Correct.PatternIterator

/-!
# The playback of a pattern by the change loop

Over a freshly loaded pattern `d` the loop writes, in order, the blocks of `d[0], d[1], ...`, and it
is at the end of the pattern exactly when it has written them all.  The invariant is `Plays`: the
blocks written so far are a prefix of those of `d`, and the iterator stands behind as many values.

The send on `Application_has_finished` has no way out but its receive, so `Wg.Done` is called only
if the listener is at its `select` then.  `finishServed` is that condition on a step; under it the
loop is never stuck (`playback`).  `exit_before_end_blocks_loop` is the run without it: the exit
signal is taken by the listener, and the loop's own `select` takes the ticker once more.
-/

namespace Jens

open Steps

/-! ### The pattern behind the loop -/

/-- The pattern as the provider loads it, with the data `d` and no iterator yet, or as a first
`Peek`, `IsLooping` or `SetLooping(false)` leaves it. -/
def FreshlyLoaded (drp : DbDataRatePattern) (d : List ℚ) : Prop :=
  ∃ p : DataRatePattern, p.iter = none ∧ p.data = some (d.map F64.fin) ∧
    (drp.drPattern = p ∨ drp.drPattern = p.iterator.2)

/-- The iterator of the pattern does not loop and has returned the first `k` values of `d`. -/
structure DbDataRatePattern.Stands (drp : DbDataRatePattern) (d : List ℚ) (k : ℕ) : Prop where
  playing : DataRatePatternIterator.Playing (d.map F64.fin) k drp.drPattern.iterator.1
  operator : drp.drPattern.iterator.1.operator = 1
  looping : drp.drPattern.iterator.1.looping = false

namespace DbDataRatePattern

theorem stands_of_freshlyLoaded {drp : DbDataRatePattern} {d : List ℚ} (hd : d ≠ [])
    (h : FreshlyLoaded drp d) : drp.Stands d 0 := by
  obtain ⟨p, hiter, hdata, hp⟩ := h
  obtain ⟨q, qs, rfl⟩ := List.exists_cons_of_ne_nil hd
  obtain ⟨it, hup⟩ : ∃ it, (newDataRatePatternIterator : DataRatePatternIterator F64).updateAndReset
      ((q :: qs).map F64.fin) = some it := ⟨_, rfl⟩
  rw [List.map_cons] at hup hdata
  -- the iterator is the same whether it is made now or has been made before
  have hit : drp.drPattern.iterator.1 = it := by
    rcases hp with hp | hp <;> rw [hp] <;> simp [DataRatePattern.iterator, hiter, hdata, hup]
  have hplay := DataRatePatternIterator.playing_of_updateAndReset rfl hup
  obtain ⟨_, _, rfl⟩ := Option.map_eq_some_iff.mp hup
  exact ⟨hit ▸ hplay, by rw [hit]; rfl, by rw [hit]; rfl⟩

theorem next_eq (drp : DbDataRatePattern) :
    drp.next = match drp.drPattern.iterator.1.next with
      | .error e => .error e
      | .ok (v, it) =>
        .ok (v, { drp with drPattern := { drp.drPattern.iterator.2 with iter := some it } }) := rfl

theorem Stands.next_of_lt {drp : DbDataRatePattern} {d : List ℚ} {k : ℕ} (h : drp.Stands d k)
    (hk : k < d.length) :
    ∃ drp', drp.next = .ok (.fin d[k], drp') ∧ drp'.Stands d (k + 1) := by
  obtain ⟨v, it, hnext, hv, hl, hop, hplay⟩ :=
    h.playing.next_of_lt h.operator (by simpa using hk)
  obtain rfl : v = .fin d[k] := by
    rw [List.getElem?_map, List.getElem?_eq_getElem hk] at hv
    exact (Option.some.inj hv).symm
  refine ⟨{ drp with drPattern := { drp.drPattern.iterator.2 with iter := some it } }, ?_, ?_⟩
  · rw [next_eq, hnext]
  · exact ⟨hplay, hop, hl.trans h.looping⟩

theorem Stands.next_of_eq {drp : DbDataRatePattern} {d : List ℚ} (h : drp.Stands d d.length) :
    drp.next = .error .iterableStop := by
  have hplay : DataRatePatternIterator.Playing (d.map F64.fin) (d.map F64.fin).length
      drp.drPattern.iterator.1 := by
    rw [List.length_map]
    exact h.playing
  rw [next_eq, hplay.next_of_eq h.operator h.looping]

end DbDataRatePattern

/-! ### The invariant of the loop -/

/-- The blocks of the values of `d`. -/
def changeRateArrays (cv : F64.FloatConv) (d : List ℚ) : List (List UInt8) :=
  d.map fun q => changeRateArray cv (.fin q)

namespace ChangeLoop

/-- The loop plays `d`. -/
structure Plays (cv : F64.FloatConv) (d : List ℚ) (l : ChangeLoop) : Prop where
  written : l.written <+: changeRateArrays cv d
  stands : l.pc = .select → l.drp.Stands d l.written.length
  finishing : l.pc = .finishing → l.written.length = d.length
  notPanicked : l.pc ≠ .panicked
  wgDone : l.wgDone = if l.pc = .returned then 1 else 0
  finished : l.finished = 0 ∨ l.finished = 1 ∧ l.pc = .returned ∧ l.written.length = d.length

theorem Plays.length_le {cv : F64.FloatConv} {d : List ℚ} {l : ChangeLoop} (h : Plays cv d l) :
    l.written.length ≤ d.length := by
  simpa [changeRateArrays] using h.written.length_le

theorem Plays.finished_of_ne {cv : F64.FloatConv} {d : List ℚ} {l : ChangeLoop} (h : Plays cv d l)
    (hpc : l.pc ≠ .returned) : l.finished = 0 :=
  h.finished.resolve_right fun hf => hpc hf.2.1

theorem plays_launch (cv : F64.FloatConv) {d : List ℚ} {drp : DbDataRatePattern}
    (h : drp.Stands d 0) : Plays cv d (launch drp) :=
  ⟨List.nil_prefix, fun _ => h, fun hf => LoopPc.noConfusion hf, fun hf => LoopPc.noConfusion hf,
    rfl, .inl rfl⟩

/-- `doneAndReturn` is reached from where nothing is returned yet. -/
theorem Plays.doneAndReturn {cv : F64.FloatConv} {d : List ℚ} {l : ChangeLoop} (h : Plays cv d l)
    (hpc : l.pc ≠ .returned) : Plays cv d l.doneAndReturn where
  written := h.written
  stands := fun hf => LoopPc.noConfusion hf
  finishing := fun hf => LoopPc.noConfusion hf
  notPanicked := fun hf => LoopPc.noConfusion hf
  wgDone := by
    have := h.wgDone
    rw [if_neg hpc] at this
    simp [ChangeLoop.doneAndReturn, this]
  finished := .inl (h.finished_of_ne hpc)

/-- What a tick does: the next block, a failed write, or the end of the pattern. -/
theorem Plays.onTick_cases {cv : F64.FloatConv} {d : List ℚ} {l : ChangeLoop} (h : Plays cv d l)
    (hpc : l.pc = .select) (writeOk : Bool) :
    (∃ drp', ∃ hk : l.written.length < d.length, drp'.Stands d (l.written.length + 1) ∧
      l.onTick cv writeOk =
        if writeOk then
          { l with drp := drp',
                   written := l.written ++ [changeRateArray cv (.fin d[l.written.length])] }
        else { l with drp := drp', pc := .reportingFatal }) ∨
    (l.written.length = d.length ∧ l.drp.next = .error .iterableStop ∧
      l.onTick cv writeOk = { l with pc := .finishing }) := by
  -- the iterator stands behind as many values as blocks are written
  rcases Nat.lt_or_eq_of_le h.length_le with hk | hk
  · obtain ⟨drp', hnext, hs⟩ := (h.stands hpc).next_of_lt hk
    refine .inl ⟨drp', hk, hs, ?_⟩
    rw [onTick, hnext]
  · have hnext := (hk ▸ h.stands hpc : l.drp.Stands d d.length).next_of_eq
    refine .inr ⟨hk, hnext, ?_⟩
    rw [onTick, hnext]

/-- One more block keeps the written ones a prefix. -/
theorem prefix_concat {cv : F64.FloatConv} {d : List ℚ} {bs : List (List UInt8)}
    (h : bs <+: changeRateArrays cv d) (hk : bs.length < d.length) :
    bs ++ [changeRateArray cv (.fin d[bs.length])] <+: changeRateArrays cv d := by
  rw [List.prefix_iff_eq_take] at h ⊢
  rw [List.length_append, List.length_singleton,
    ← List.take_append_getElem (by simpa [changeRateArrays] using hk), ← h]
  simp [changeRateArrays]

theorem Plays.onTick {cv : F64.FloatConv} {d : List ℚ} {l : ChangeLoop} (h : Plays cv d l)
    (hpc : l.pc = .select) (writeOk : Bool) : Plays cv d (l.onTick cv writeOk) := by
  have hne : l.pc ≠ .returned := by simp [hpc]
  have hdone : l.wgDone = 0 := by rw [h.wgDone, if_neg hne]
  have hfin := h.finished_of_ne hne
  rcases h.onTick_cases hpc writeOk with ⟨drp', hk, hs, heq⟩ | ⟨hk, -, heq⟩
  · rw [heq]
    cases writeOk with
    | false =>
      exact ⟨h.written, fun hf => LoopPc.noConfusion hf, fun hf => LoopPc.noConfusion hf,
        fun hf => LoopPc.noConfusion hf, hdone, .inl hfin⟩
    | true =>
      refine ⟨prefix_concat h.written hk, fun _ => ?_, fun hf => ?_, fun hf => ?_, h.wgDone,
        .inl hfin⟩
      · simpa using hs
      · simp [hpc] at hf
      · simp [hpc] at hf
  · rw [heq]
    exact ⟨h.written, fun hf => LoopPc.noConfusion hf, fun _ => hk, fun hf => LoopPc.noConfusion hf,
      hdone, .inl hfin⟩

/-- How many steps the loop has left at most. -/
def rank (d : List ℚ) (l : ChangeLoop) : ℕ :=
  match l.pc with
  | .select => d.length - l.written.length + 2
  | .finishing => 1
  | .reportingFatal => 1
  | .returned => 0
  | .panicked => 0

theorem Plays.rank_onTick_lt {cv : F64.FloatConv} {d : List ℚ} {l : ChangeLoop} (h : Plays cv d l)
    (hpc : l.pc = .select) (writeOk : Bool) : rank d (l.onTick cv writeOk) < rank d l := by
  rcases h.onTick_cases hpc writeOk with ⟨drp', hk, -, heq⟩ | ⟨-, -, heq⟩
  · cases writeOk with
    | false => simp [heq, rank, hpc]
    | true =>
      simp only [heq, rank, hpc, if_true, List.length_append, List.length_singleton]
      omega
  · simp [heq, rank, hpc]

end ChangeLoop

namespace Player

/-! ### The loop within the player -/

/-- The loop plays `d`, or is still to be launched on it. -/
structure PlaysLoop (cv : F64.FloatConv) (d : List ℚ) (s : Player) : Prop where
  drp : s.drp.Stands d 0
  launched : s.loop.isSome → s.start = .running
  loop : ∀ l, s.loop = some l → l.Plays cv d

theorem closeChannel_drp (s : Player) : s.closeChannel.drp = s.drp := by
  unfold closeChannel
  split_ifs <;> rfl

theorem closeChannel_start (s : Player) : s.closeChannel.start = s.start := by
  unfold closeChannel
  split_ifs <;> rfl

theorem closeChannel_loop (s : Player) : s.closeChannel.loop = s.loop := by
  unfold closeChannel
  split_ifs <;> rfl

theorem PlaysLoop.init (cv : F64.FloatConv) {d : List ℚ} {drp : DbDataRatePattern}
    (h : drp.Stands d 0) : PlaysLoop cv d (init drp) :=
  ⟨h, fun hl => absurd hl (by simp [Player.init]), fun l hl => absurd hl (by simp [Player.init])⟩

/-- A step that leaves the loop and its start alone. -/
theorem PlaysLoop.congr {cv : F64.FloatConv} {d : List ℚ} {s t : Player} (h : PlaysLoop cv d s)
    (hdrp : t.drp = s.drp) (hloop : t.loop = s.loop) (hstart : s.loop.isSome → t.start = .running) :
    PlaysLoop cv d t :=
  ⟨hdrp ▸ h.drp, fun hl => hstart (hloop ▸ hl), fun l hl => h.loop l (hloop ▸ hl)⟩

/-- A step of the loop. -/
theorem PlaysLoop.update {cv : F64.FloatConv} {d : List ℚ} {s t : Player} {l l' : ChangeLoop}
    (h : PlaysLoop cv d s) (hl : s.loop = some l) (hl' : l'.Plays cv d) (hdrp : t.drp = s.drp)
    (hloop : t.loop = some l') (hstart : t.start = s.start) : PlaysLoop cv d t where
  drp := hdrp ▸ h.drp
  launched := fun _ => hstart.trans (h.launched (by simp [hl]))
  loop := by
    intro m hm
    obtain rfl : l' = m := Option.some.inj (hloop.symm.trans hm)
    exact hl'

theorem PlaysLoop.step {cv : F64.FloatConv} {d : List ℚ} {s t : Player} {a : PlayerAction}
    (h : PlaysLoop cv d s) (hs : s.step cv a = some t) : PlaysLoop cv d t := by
  cases moves_of_step hs with
  | initTc hst => exact h.congr rfl rfl fun hl => by simp [h.launched hl] at hst
  | warmupOver hst =>
    refine ⟨h.drp, fun _ => rfl, fun l hl => ?_⟩
    obtain rfl := Option.some.inj hl
    exact ChangeLoop.plays_launch cv h.drp
  | warmupExit hst _ => exact h.congr rfl rfl fun hl => by simp [h.launched hl] at hst
  | exit =>
    exact h.congr (closeChannel_drp s) (closeChannel_loop s)
      fun hl => (closeChannel_start s).trans (h.launched hl)
  | close _ =>
    exact h.congr (closeChannel_drp s) (closeChannel_loop s)
      fun hl => (closeChannel_start s).trans (h.launched hl)
  | offer _ | giveUp _ _ | takeExit _ _ | takeReport _ _ => exact h.congr rfl rfl h.launched
  | @loopExit l _ hl hpc | @takeLoopReport l _ hl hpc =>
    exact h.update hl ((h.loop l hl).doneAndReturn (by simp [hpc])) rfl rfl rfl
  | @loopTick l writeOk hl hpc => exact h.update hl ((h.loop l hl).onTick hpc writeOk) rfl rfl rfl
  | @loopGiveUp l hl hpc =>
    exact h.update hl ((h.loop l hl).doneAndReturn (by simp [hpc])) rfl rfl rfl
  | @takeFinished l _ hl hpc =>
    have hplay := h.loop l hl
    refine h.update hl ?_ rfl rfl rfl
    exact { hplay.doneAndReturn (by simp [hpc]) with
      finished := .inr ⟨by simp [hplay.finished_of_ne (by simp [hpc])], rfl, hplay.finishing hpc⟩ }

/-! ### How many steps the loop takes -/

/-- The actions that move the loop. -/
def movesLoop : PlayerAction → Bool
  | .loopExit | .loopTick _ | .loopGiveUp | .takeFinished | .takeLoopReport => true
  | _ => false

/-- How many steps the loop has left at most, a loop still to be launched included. -/
def rank (d : List ℚ) (s : Player) : ℕ :=
  match s.loop with
  | none => d.length + 2
  | some l => l.rank d

theorem rank_eq_of_loop {d : List ℚ} {s t : Player} (h : t.loop = s.loop) :
    rank d t = rank d s := by
  rw [rank, rank, h]

theorem rank_lt_of_movesLoop {cv : F64.FloatConv} {d : List ℚ} {s t : Player} {a : PlayerAction}
    (h : PlaysLoop cv d s) (hs : s.step cv a = some t) (ha : movesLoop a) :
    rank d t < rank d s := by
  cases moves_of_step hs with
  | @loopTick l writeOk hl hpc =>
    simpa [rank, hl] using (h.loop l hl).rank_onTick_lt hpc writeOk
  | loopExit _ hl hpc | loopGiveUp hl hpc | takeFinished _ hl hpc | takeLoopReport _ hl hpc =>
    simp [rank, hl, ChangeLoop.rank, ChangeLoop.doneAndReturn, hpc]
  | _ => simp [movesLoop] at ha

theorem rank_le_of_not_movesLoop {cv : F64.FloatConv} {d : List ℚ} {s t : Player}
    {a : PlayerAction} (h : PlaysLoop cv d s) (hs : s.step cv a = some t) (ha : ¬ movesLoop a) :
    rank d t ≤ rank d s := by
  cases moves_of_step hs with
  | warmupOver hst =>
    cases hl : s.loop with
    | none => simp [rank, hl, ChangeLoop.rank, ChangeLoop.launch]
    | some l => simp [h.launched (by simp [hl])] at hst
  | exit | close _ => exact (rank_eq_of_loop (closeChannel_loop s)).le
  | loopExit | loopTick | loopGiveUp | takeFinished | takeLoopReport => simp [movesLoop] at ha
  | _ => exact le_rfl

/-- Whatever happens, the loop moves at most `n + 2` times over `n` values. -/
theorem countP_movesLoop_le {cv : F64.FloatConv} {d : List ℚ} {drp : DbDataRatePattern} {s : Player}
    {acts : List PlayerAction} (h : drp.Stands d 0)
    (hrun : run (step cv) (Player.init drp) acts = some s) :
    acts.countP movesLoop ≤ d.length + 2 := by
  have hinit : rank d (Player.init drp) = d.length + 2 := rfl
  have hle : acts.countP movesLoop + rank d s ≤ rank d (Player.init drp) := by
    refine countP_le_rank (I := PlaysLoop cv d) movesLoop (rank d) ?_ ?_ ?_
      (PlaysLoop.init cv h) hrun
    · intro s a s' hi hs
      exact hi.step hs
    · intro s a s' hi hs ha
      exact rank_lt_of_movesLoop hi hs ha
    · intro s a s' hi hs ha
      exact rank_le_of_not_movesLoop hi hs ha
  omega

/-! ### Runs without an exit and without a failed write -/

/-- Where the loop has neither taken the exit signal nor failed to write, it is not in its fatal
report, and it has returned only by the end of the pattern. -/
def UndisturbedLoop (acts : List PlayerAction) (s : Player) : Prop :=
  .loopExit ∉ acts → .loopTick false ∉ acts → ∀ l, s.loop = some l →
    l.pc ≠ .reportingFatal ∧ (l.pc = .returned → l.finished = 1)

theorem UndisturbedLoop.step {cv : F64.FloatConv} {d : List ℚ} {acts : List PlayerAction}
    {s t : Player} {a : PlayerAction} (hplay : PlaysLoop cv d s) (h : UndisturbedLoop acts s)
    (hs : s.step cv a = some t) : UndisturbedLoop (acts ++ [a]) t := by
  intro hexit hfail l' hl'
  have h := h (fun hm => hexit (List.mem_append_left _ hm))
    (fun hm => hfail (List.mem_append_left _ hm))
  cases moves_of_step hs with
  | warmupOver _ =>
    obtain rfl := Option.some.inj hl'
    simp [ChangeLoop.launch]
  | exit | close _ => exact h l' ((closeChannel_loop s).symm.trans hl')
  | loopExit _ hl hpc => simp at hexit
  | @loopTick l writeOk hl hpc =>
    have hw : writeOk = true := by
      cases writeOk with
      | true => rfl
      | false => simp at hfail
    obtain rfl := Option.some.inj hl'
    rcases (hplay.loop l hl).onTick_cases hpc writeOk with ⟨drp', hk, -, heq⟩ | ⟨-, -, heq⟩
    · rw [heq]
      simp [hw, hpc]
    · rw [heq]
      simp
  | @takeFinished l _ hl hpc =>
    obtain rfl := Option.some.inj hl'
    simp [ChangeLoop.doneAndReturn, (hplay.loop l hl).finished_of_ne (by simp [hpc])]
  | @loopGiveUp l hl hpc | @takeLoopReport l _ hl hpc => exact absurd hpc (h l hl).1
  | _ => exact h l' hl'

theorem undisturbedLoop_of_run {cv : F64.FloatConv} {d : List ℚ} {drp : DbDataRatePattern}
    {s : Player} {acts : List PlayerAction} (h : drp.Stands d 0)
    (hrun : run (step cv) (Player.init drp) acts = some s) : UndisturbedLoop acts s := by
  have hinit : UndisturbedLoop [] (Player.init drp) := by
    intro _ _ l hl
    simp [Player.init] at hl
  have hboth : PlaysLoop cv d s ∧ UndisturbedLoop acts s := by
    refine run_trace_invariant (I := fun acts s => PlaysLoop cv d s ∧ UndisturbedLoop acts s) ?_
      ⟨PlaysLoop.init cv h, hinit⟩ hrun
    intro as s a s' hi hs
    exact ⟨hi.1.step hs, hi.2.step hi.1 hs⟩
  exact hboth.2

/-! ### The end of the pattern is received -/

/-- The loop stands at its send on `Application_has_finished`. -/
def loopFinishing (s : Player) : Bool := s.loop.any fun l => decide (l.pc = .finishing)

/-- The next tick finds the pattern over. -/
def exhausted (s : Player) : Bool :=
  s.loop.any fun l => match l.drp.next with
    | .error .iterableStop => true
    | _ => false

/-- **The condition on a step.**  A tick finds the pattern over only while the listener is at its
`select`, and the listener takes nothing else while the loop offers the end of the pattern. -/
def finishServed (s : Player) : PlayerAction → Bool
  | .loopTick _ => !exhausted s || s.listener == .select
  | .takeExit => !loopFinishing s
  | .takeReport _ => !loopFinishing s
  | _ => true

/-- Whoever offers the end of the pattern finds the listener at its `select`. -/
def FinishHeard (s : Player) : Prop :=
  ∀ l, s.loop = some l → l.pc = .finishing → s.listener = .select

theorem FinishHeard.step {cv : F64.FloatConv} {s t : Player} {a : PlayerAction} (h : FinishHeard s)
    (hc : finishServed s a) (hs : s.step cv a = some t) : FinishHeard t := by
  intro l' hl' hpc'
  cases moves_of_step hs with
  | warmupOver _ =>
    obtain rfl := Option.some.inj hl'
    simp [ChangeLoop.launch] at hpc'
  | exit =>
    rw [closeChannel_listener]
    exact h l' ((closeChannel_loop s).symm.trans hl') hpc'
  | close hw => simp [h l' ((closeChannel_loop s).symm.trans hl') hpc'] at hw
  | @loopTick l writeOk hl hpc =>
    obtain rfl := Option.some.inj hl'
    have hstop := (ChangeLoop.pc_onTick_eq_finishing hpc).mp hpc'
    have hex : exhausted s := by simp [exhausted, hl, hstop]
    simpa [finishServed, hex] using hc
  | loopExit _ _ _ | loopGiveUp _ _ | takeFinished _ _ _ | takeLoopReport _ _ _ =>
    obtain rfl := Option.some.inj hl'
    simp [ChangeLoop.doneAndReturn] at hpc'
  | takeExit _ _ | takeReport _ _ =>
    have hl : s.loop = some l' := hl'
    simp [finishServed, loopFinishing, hl, hpc'] at hc
  | _ => exact h l' hl' hpc'

/-- A loop that plays and has not returned can move, if its end is heard. -/
theorem exists_movesLoop {cv : F64.FloatConv} {s : Player} {l : ChangeLoop} (hl : s.loop = some l)
    (hheard : FinishHeard s) (hpanic : l.pc ≠ .panicked) (hret : l.pc ≠ .returned) :
    ∃ a, movesLoop a ∧ (s.step cv a).isSome := by
  cases hpc : l.pc with
  | select => exact ⟨.loopTick true, rfl, by simp [step, stepLoop, hl, ChangeLoop.step, hpc]⟩
  | finishing =>
    have hsel := hheard l hl hpc
    exact ⟨.takeFinished, rfl, by simp [step, stepLoop, hl, ChangeLoop.step, hpc, hsel]⟩
  | reportingFatal => exact ⟨.loopGiveUp, rfl, by simp [step, stepLoop, hl, ChangeLoop.step, hpc]⟩
  | returned => exact absurd hpc hret
  | panicked => exact absurd hpc hpanic

/-! ### The main theorem and the run that never calls `Wg.Done` -/

/-- What the loop over `d` has done after the actions `acts`. -/
structure Playback (cv : F64.FloatConv) (d : List ℚ) (acts : List PlayerAction) (s : Player)
    (l : ChangeLoop) : Prop where
  /-- Every block has eight bytes. -/
  blocks : ∀ b ∈ l.written, b.length = 8
  /-- The blocks decode to a prefix of the rates. -/
  rates : l.written.map leNat <+: d.map fun q => 1000 * ⌊q⌋₊
  finished_le : l.finished ≤ 1
  wgDone_le : l.wgDone ≤ 1
  /-- `Wg.Done` is called once the loop returns, not before. -/
  wgDone : l.pc = .returned ↔ l.wgDone = 1
  /-- With neither exit nor failed write the loop returns only when it has played the whole pattern
  and the end of it was received. -/
  complete : .loopExit ∉ acts → .loopTick false ∉ acts → l.pc = .returned →
    l.written.map leNat = (d.map fun q => 1000 * ⌊q⌋₊) ∧ l.finished = 1
  /-- A loop that has not returned is not stuck. -/
  progress : l.pc ≠ .returned → ∃ a, movesLoop a ∧ (s.step cv a).isSome
  /-- And it moves at most so often. -/
  moves_le : acts.countP movesLoop ≤ d.length + 2

theorem map_leNat_changeRateArrays (cv : F64.FloatConv) {d : List ℚ}
    (hq : ∀ q ∈ d, 0 ≤ q ∧ q < 2 ^ 64 / 1000) :
    (changeRateArrays cv d).map leNat = d.map fun q => 1000 * ⌊q⌋₊ := by
  rw [changeRateArrays, List.map_map, List.map_inj_left]
  intro q hmem
  exact leNat_changeRateArray cv (hq q hmem).1 (hq q hmem).2

/-- **The playback trace.**  Whatever the goroutines do in steps that meet `finishServed`, the loop
over freshly loaded data has written the blocks of a prefix of it, the whole of it if nothing came
in between, and it returns with exactly one call of `Wg.Done`. -/
theorem playback (cv : F64.FloatConv) (drp : DbDataRatePattern) (d : List ℚ) (hd : d ≠ [])
    (hq : ∀ q ∈ d, 0 ≤ q ∧ q < 2 ^ 64 / 1000) (hfresh : FreshlyLoaded drp d)
    (acts : List PlayerAction) (s : Player) (l : ChangeLoop)
    (hserved : StepsMeet (step cv) (fun s a => finishServed s a) (init drp) acts)
    (hrun : run (step cv) (init drp) acts = some s) (hl : s.loop = some l) :
    Playback cv d acts s l := by
  have hstands := DbDataRatePattern.stands_of_freshlyLoaded hd hfresh
  have hloop : PlaysLoop cv d s := by
    refine run_invariant (I := PlaysLoop cv d) ?_ (PlaysLoop.init cv hstands) hrun
    intro s a s' hi hs
    exact hi.step hs
  have hplay : l.Plays cv d := hloop.loop l hl
  have hheard : FinishHeard s := by
    refine invariant_of_stepsMeet (I := FinishHeard) ?_ ?_ hserved hrun
    · intro s a s' hi hc hs
      exact hi.step hc hs
    · intro m hm
      simp [Player.init] at hm
  have hrates : l.written.map leNat <+: d.map fun q => 1000 * ⌊q⌋₊ :=
    map_leNat_changeRateArrays cv hq ▸ hplay.written.map leNat
  refine ⟨?_, hrates, ?_, ?_, ?_, ?_, ?_, countP_movesLoop_le hstands hrun⟩
  -- every block written is one of those of `d`
  · intro b hb
    obtain ⟨q, -, rfl⟩ := List.mem_map.mp (hplay.written.subset hb)
    exact length_leBytes 8 _
  · rcases hplay.finished with hf | hf <;> omega
  · rw [hplay.wgDone]
    split_ifs <;> omega
  · rw [hplay.wgDone]
    split_ifs with hpc <;> simp [hpc]
  -- the end of the pattern was received, so the prefix is the whole
  · intro hexit hfail hpc
    have hone := (undisturbedLoop_of_run hstands hrun hexit hfail l hl).2 hpc
    have hlen : l.written.length = d.length :=
      (hplay.finished.resolve_left (by omega)).2.2
    exact ⟨hrates.eq_of_length (by simpa using hlen), hone⟩
  · exact exists_movesLoop hl hheard hplay.notPanicked

/-- One value, played to its end. -/
theorem playback_oneValue :
    ∃ s l, run (step zeroConv) (init oneValuePattern)
        [.initTc true, .warmupOver, .loopTick true, .loopTick true, .takeFinished] = some s ∧
      s.loop = some l ∧
      Playback zeroConv [1000]
        [.initTc true, .warmupOver, .loopTick true, .loopTick true, .takeFinished] s l :=
  ⟨_, _, rfl, rfl, playback zeroConv oneValuePattern [1000] (by decide) (by norm_num)
    ⟨oneValuePattern.drPattern, rfl, rfl, .inl rfl⟩
    [.initTc true, .warmupOver, .loopTick true, .loopTick true, .takeFinished] _ _
    (by decide +kernel) rfl rfl⟩

/-- A loop offering the end of the pattern after the listener has gone stays there. -/
theorem finishing_of_run {cv : F64.FloatConv} {s t : Player} {l : ChangeLoop}
    {acts : List PlayerAction} (hl : s.loop = some l) (hpc : l.pc = .finishing)
    (hlis : s.listener ≠ .select) (hst : s.start = .running)
    (hrun : run (step cv) s acts = some t) : t.loop = some l := by
  -- nobody can receive from the loop, and nothing but the receive moves it
  suffices h : t.loop = some l ∧ t.listener ≠ .select ∧ t.start = .running from h.1
  refine run_invariant
    (I := fun s => s.loop = some l ∧ s.listener ≠ .select ∧ s.start = .running) ?_
    ⟨hl, hlis, hst⟩ hrun
  intro s a s' ⟨hl, hlis, hst⟩ hs
  refine ⟨?_, not_select_of_step hlis hs, ?_⟩
  all_goals
    cases moves_of_step hs with
    | initTc h | warmupOver h | warmupExit h _ => simp [h] at hst
    | exit | close _ =>
      simp only [closeChannel_loop, closeChannel_start]
      assumption
    | loopExit _ hl' hpc' | loopTick hl' hpc' | loopGiveUp hl' hpc' =>
      obtain rfl := Option.some.inj (hl'.symm.trans hl)
      simp [hpc] at hpc'
    | takeFinished h _ _ | takeExit h _ | takeReport h _ | takeLoopReport h _ _ =>
      exact absurd h hlis
    | _ => assumption

/-- **After the exit signal `Wg.Done` may never be called.**  The listener has taken the exit
signal; the loop, whose `select` finds the ticker ready as well, takes that and comes to the end of
the pattern. -/
theorem exit_before_end_blocks_loop :
    ∃ s, run (step zeroConv) (init oneValuePattern)
        [.initTc true, .warmupOver, .loopTick true, .exit, .takeExit, .loopTick true] = some s ∧
      ∀ acts t, run (step zeroConv) s acts = some t →
        ∃ l, t.loop = some l ∧ l.pc = .finishing ∧ l.wgDone = 0 :=
  ⟨_, rfl, fun _ _ hrun =>
    ⟨_, finishing_of_run rfl (by decide +kernel) (by decide) rfl hrun, by decide +kernel, rfl⟩⟩

end Player

end Jens
