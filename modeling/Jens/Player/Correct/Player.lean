import Jens.Player.Player

/-!
# The listener of the player

The listener of `Start` is a single `select`: it takes one message and is gone.  So it serves the
player until the exit channel is closed exactly as long as the message it takes is one after which
it closes that channel, and nobody else is waiting for it then (`listener_serves`).  `Served` is
that condition, step by step, on the state before the step.

* `moves_of_step` is the step relation of the player, one constructor an action.
* `not_select_of_run`: a listener that has left its `select` never comes back, so whoever needs it
  then is abandoned.
* `info_report_abandons_finish`: one report of level `info` takes the listener away, and the end of
  the pattern is never received, with the exit channel still open.
-/

namespace Jens

open Steps

/-! ### Where a tick leads -/

namespace ChangeLoop

variable {cv : F64.FloatConv} {l : ChangeLoop} {writeOk : Bool}

theorem pc_onTick_eq_finishing (hl : l.pc = .select) :
    (l.onTick cv writeOk).pc = .finishing ↔ l.drp.next = .error .iterableStop := by
  unfold onTick
  split
  · rename_i hstop
    exact iff_of_true rfl hstop
  · rename_i e hne herr
    apply iff_of_false (by simp)
    intro h
    rw [herr] at h
    exact hne (Except.error.inj h)
  · rename_i hok
    rw [hok]
    refine iff_of_false ?_ (by simp)
    split_ifs <;> simp [hl]

theorem pc_onTick_eq_reportingFatal (hl : l.pc = .select) :
    (l.onTick cv writeOk).pc = .reportingFatal ↔ (∃ x, l.drp.next = .ok x) ∧ writeOk = false := by
  unfold onTick
  split
  · rename_i hstop
    simp [hstop]
  · rename_i herr
    simp [herr]
  · rename_i value drp hok
    cases writeOk with
    | true => simp [hl]
    | false => exact iff_of_true rfl ⟨⟨(value, drp), hok⟩, rfl⟩

end ChangeLoop

namespace Player

/-! ### The step relation -/

/-- The steps of the player with their guards. -/
inductive Moves (cv : F64.FloatConv) (s : Player) : PlayerAction → Player → Prop
  | initTc {ok : Bool} : s.start = .initTc →
      Moves cv s (.initTc ok) { s with start := if ok then .warmup else .returned }
  | warmupOver : s.start = .warmup →
      Moves cv s .warmupOver { s with start := .running, loop := some (.launch s.drp) }
  | warmupExit : s.start = .warmup → s.onExternExit = true →
      Moves cv s .warmupExit { s with start := .returned }
  | exit : Moves cv s .exit s.closeChannel
  | offer {r : Report} : s.start = .running →
      Moves cv s (.offer r) { s with reports := s.reports ++ [r] }
  | giveUp {i : ℕ} {r : Report} : s.reports[i]? = some r → r.timesOut = true →
      Moves cv s (.giveUp i) { s with reports := s.reports.eraseIdx i }
  | loopExit {l : ChangeLoop} : s.onExternExit = true → s.loop = some l → l.pc = .select →
      Moves cv s .loopExit { s with loop := some l.doneAndReturn }
  | loopTick {l : ChangeLoop} {writeOk : Bool} : s.loop = some l → l.pc = .select →
      Moves cv s (.loopTick writeOk) { s with loop := some (l.onTick cv writeOk) }
  | loopGiveUp {l : ChangeLoop} : s.loop = some l → l.pc = .reportingFatal →
      Moves cv s .loopGiveUp { s with loop := some l.doneAndReturn }
  | takeFinished {l : ChangeLoop} : s.listener = .select → s.loop = some l → l.pc = .finishing →
      Moves cv s .takeFinished
        { s with loop := some { l.doneAndReturn with finished := l.finished + 1 },
                 listener := .closing true }
  | takeExit : s.listener = .select → s.onExternExit = true →
      Moves cv s .takeExit { s with listener := .returned }
  | takeReport {i : ℕ} {r : Report} : s.listener = .select → s.reports[i]? = some r →
      Moves cv s (.takeReport i)
        { s with listener := afterReport r.level, reports := s.reports.eraseIdx i }
  | takeLoopReport {l : ChangeLoop} : s.listener = .select → s.loop = some l →
      l.pc = .reportingFatal →
      Moves cv s .takeLoopReport
        { s with loop := some l.doneAndReturn, listener := .closing false }
  | close {andWait : Bool} : s.listener = .closing andWait →
      Moves cv s .close
        { s.closeChannel with listener := if andWait then .waiting else .returned }

theorem stepLoop_eq_some {cv : F64.FloatConv} {s t : Player} {e : LoopEvent} :
    s.stepLoop cv e = some t ↔
      ∃ l l', s.loop = some l ∧ l.step cv e = some l' ∧ t = { s with loop := some l' } := by
  simp only [stepLoop, Option.bind_eq_some_iff, Option.map_eq_some_iff]
  constructor
  · rintro ⟨l, hl, l', hl', rfl⟩
    exact ⟨l, l', hl, hl', rfl⟩
  · rintro ⟨l, l', hl, hl', rfl⟩
    exact ⟨l, hl, l', hl', rfl⟩

theorem moves_of_step {cv : F64.FloatConv} {s t : Player} {a : PlayerAction}
    (h : s.step cv a = some t) : Moves cv s a t := by
  cases a with
  | initTc ok =>
    simp only [step, Option.ite_none_right_eq_some, Option.some.injEq] at h
    obtain ⟨h1, rfl⟩ := h
    exact .initTc h1
  | warmupOver =>
    simp only [step, Option.ite_none_right_eq_some, Option.some.injEq] at h
    obtain ⟨h1, rfl⟩ := h
    exact .warmupOver h1
  | warmupExit =>
    simp only [step, Option.ite_none_right_eq_some, Option.some.injEq] at h
    obtain ⟨⟨h1, h2⟩, rfl⟩ := h
    exact .warmupExit h1 h2
  | exit =>
    obtain rfl := Option.some.inj h
    exact .exit
  | offer r =>
    simp only [step, Option.ite_none_right_eq_some, Option.some.injEq] at h
    obtain ⟨h1, rfl⟩ := h
    exact .offer h1
  | giveUp i =>
    simp only [step, Option.ite_none_right_eq_some, Option.some.injEq,
      Option.map_eq_some_iff] at h
    obtain ⟨⟨r, h1, h2⟩, rfl⟩ := h
    exact .giveUp h1 h2
  | loopExit =>
    simp only [step, Option.ite_none_right_eq_some, stepLoop_eq_some, ChangeLoop.step,
      Option.some.injEq] at h
    obtain ⟨h1, l, _, hl, ⟨h2, rfl⟩, rfl⟩ := h
    exact .loopExit h1 hl h2
  | loopTick writeOk =>
    simp only [step, stepLoop_eq_some, ChangeLoop.step, Option.ite_none_right_eq_some,
      Option.some.injEq] at h
    obtain ⟨l, _, hl, ⟨h2, rfl⟩, rfl⟩ := h
    exact .loopTick hl h2
  | loopGiveUp =>
    simp only [step, stepLoop_eq_some, ChangeLoop.step, Option.ite_none_right_eq_some,
      Option.some.injEq] at h
    obtain ⟨l, _, hl, ⟨h2, rfl⟩, rfl⟩ := h
    exact .loopGiveUp hl h2
  | takeFinished =>
    simp only [step, Option.ite_none_right_eq_some, Option.map_eq_some_iff, stepLoop_eq_some,
      ChangeLoop.step, Option.some.injEq] at h
    obtain ⟨h1, _, ⟨l, _, hl, ⟨h2, rfl⟩, rfl⟩, rfl⟩ := h
    exact .takeFinished h1 hl h2
  | takeExit =>
    simp only [step, Option.ite_none_right_eq_some, Option.some.injEq] at h
    obtain ⟨⟨h1, h2⟩, rfl⟩ := h
    exact .takeExit h1 h2
  | takeReport i =>
    simp only [step, Option.ite_none_right_eq_some, Option.map_eq_some_iff] at h
    obtain ⟨h1, r, h2, rfl⟩ := h
    exact .takeReport h1 h2
  | takeLoopReport =>
    simp only [step, Option.ite_none_right_eq_some, Option.map_eq_some_iff, stepLoop_eq_some,
      ChangeLoop.step, Option.some.injEq] at h
    obtain ⟨h1, _, ⟨l, _, hl, ⟨h2, rfl⟩, rfl⟩, rfl⟩ := h
    exact .takeLoopReport h1 hl h2
  | close =>
    simp only [step] at h
    split at h
    · rename_i andWait hl
      obtain rfl := Option.some.inj h
      exact .close hl
    · exact absurd h (by simp)

/-! ### Who needs the listener -/

/-- The change loop stands at a send that only the listener receives. -/
def loopNeeds (s : Player) : Bool :=
  s.loop.any fun l => decide (l.pc = .finishing) || decide (l.pc = .reportingFatal)

/-- A fatal report is on offer. -/
def fatalPending (rs : List Report) : Bool := rs.any fun r => decide (r.level = .fatal)

/-- The change loop offers the end of the pattern, or somebody offers a fatal report. -/
def needsListener (s : Player) : Bool := loopNeeds s || fatalPending s.reports

/-- Somebody needs the listener, and it will never receive again, whatever happens. -/
def Abandoned (cv : F64.FloatConv) (s : Player) : Prop :=
  needsListener s ∧ ∀ acts t, run (step cv) s acts = some t → t.listener ≠ .select

/-- The next tick makes the loop need the listener: the pattern is over or the write fails. -/
def tickNeeds (s : Player) (writeOk : Bool) : Bool :=
  s.loop.any fun l => match l.drp.next with
    | .error .iterableStop => true
    | .error _ => false
    | .ok _ => !writeOk

/-- **The condition on a step.**  The listener takes an info or a warning only when the exit channel
is closed already; it takes a message, or the exit signal, only when nobody else needs it; and
nobody comes to need it once it has left its `select`. -/
def served (s : Player) : PlayerAction → Bool
  | .offer r => r.level != .fatal || s.listener == .select
  | .loopTick writeOk => !tickNeeds s writeOk || s.listener == .select
  | .takeFinished => !fatalPending s.reports
  | .takeExit => !needsListener s
  | .takeReport i =>
    (s.reports[i]?.map Report.level == some .fatal || s.onExternExit) && !loopNeeds s
      && !fatalPending (s.reports.eraseIdx i)
  | .takeLoopReport => !fatalPending s.reports
  | _ => true

/-! ### The listener leaves once -/

theorem not_select_of_step {cv : F64.FloatConv} {s t : Player} {a : PlayerAction}
    (hs : s.listener ≠ .select) (h : s.step cv a = some t) : t.listener ≠ .select := by
  cases moves_of_step h with
  | exit =>
    unfold closeChannel
    split_ifs <;> exact hs
  | takeFinished hl | takeExit hl | takeReport hl | takeLoopReport hl => exact absurd hl hs
  | @close andWait _ =>
    cases andWait <;> exact fun h => ListenerPc.noConfusion h
  | _ => exact hs

/-- A listener that has left its `select` never stands there again. -/
theorem not_select_of_run {cv : F64.FloatConv} {s t : Player} {acts : List PlayerAction}
    (hs : s.listener ≠ .select) (h : run (step cv) s acts = some t) : t.listener ≠ .select :=
  run_invariant (I := fun s => s.listener ≠ .select) (fun _ _ _ => not_select_of_step) hs h

theorem abandoned_of_needs {cv : F64.FloatConv} {s : Player} (hn : needsListener s)
    (hs : s.listener ≠ .select) : Abandoned cv s :=
  ⟨hn, fun _ _ => not_select_of_run hs⟩

theorem not_abandoned_of_select {cv : F64.FloatConv} {s : Player} (hs : s.listener = .select) :
    ¬ Abandoned cv s :=
  fun h => h.2 [] s rfl hs

/-! ### The invariant -/

/-- The channel is closed by nobody but `close_channel`, which says so in `is_shutting_down`; until
then the listener can receive or is about to close it; whoever needs the listener finds it there. -/
structure Inv (s : Player) : Prop where
  shutting : s.isShuttingDown = s.onExternExit
  present : s.onExternExit = false → s.listener = .select ∨ ∃ w, s.listener = .closing w
  needs : needsListener s → s.listener = .select

theorem closeChannel_onExternExit {s : Player} (h : s.isShuttingDown = s.onExternExit) :
    s.closeChannel.onExternExit = true := by
  unfold closeChannel
  split_ifs with hs
  · rw [← h, hs]
  · rfl

theorem closeChannel_isShuttingDown (s : Player) : s.closeChannel.isShuttingDown = true := by
  unfold closeChannel
  split_ifs with hs
  · exact hs
  · rfl

@[simp] theorem closeChannel_listener (s : Player) : s.closeChannel.listener = s.listener := by
  unfold closeChannel
  split_ifs <;> rfl

@[simp] theorem needsListener_closeChannel (s : Player) :
    needsListener s.closeChannel = needsListener s := by
  unfold closeChannel
  split_ifs <;> rfl

theorem Inv.init (drp : DbDataRatePattern) : Inv (init drp) :=
  ⟨rfl, fun _ => .inl rfl, fun _ => rfl⟩

/-- A loop that stands at no send leaves only the reports to the listener. -/
theorem fatalPending_of_needsListener {s : Player} (hl : loopNeeds s = false)
    (h : needsListener s) : fatalPending s.reports := by
  rwa [needsListener, hl, Bool.false_or] at h

theorem fatalPending_of_eraseIdx {rs : List Report} {i : ℕ} (h : fatalPending (rs.eraseIdx i)) :
    fatalPending rs := by
  rw [fatalPending, List.any_eq_true] at *
  obtain ⟨r, hr, hf⟩ := h
  exact ⟨r, List.mem_of_mem_eraseIdx hr, hf⟩

theorem fatalPending_append (rs : List Report) (r : Report) :
    fatalPending (rs ++ [r]) = (fatalPending rs || decide (r.level = .fatal)) := by
  rw [fatalPending, List.any_append, fatalPending, List.any_cons, List.any_nil, Bool.or_false]

/-- After a tick the loop needs the listener only if the tick brought it there. -/
theorem tickNeeds_of_onTick {cv : F64.FloatConv} {s : Player} {l : ChangeLoop} {writeOk : Bool}
    (hs : s.loop = some l) (hl : l.pc = .select)
    (h : (l.onTick cv writeOk).pc = .finishing ∨ (l.onTick cv writeOk).pc = .reportingFatal) :
    tickNeeds s writeOk := by
  rcases h with h | h
  · have hstop := (ChangeLoop.pc_onTick_eq_finishing hl).mp h
    simp [tickNeeds, hs, hstop]
  · obtain ⟨⟨x, hok⟩, hw⟩ := (ChangeLoop.pc_onTick_eq_reportingFatal hl).mp h
    simp [tickNeeds, hs, hok, hw]

/-- A step that meets the condition keeps the invariant. -/
theorem Inv.step {cv : F64.FloatConv} {s t : Player} {a : PlayerAction} (hi : Inv s)
    (hc : served s a) (h : s.step cv a = some t) : Inv t := by
  have needs := hi.needs
  simp only [needsListener, Bool.or_eq_true] at needs
  cases moves_of_step h with
  | initTc hs => exact ⟨hi.shutting, hi.present, hi.needs⟩
  | warmupOver hs =>
    refine ⟨hi.shutting, hi.present, fun hn => ?_⟩
    have hrep := fatalPending_of_needsListener (by simp [loopNeeds, ChangeLoop.launch]) hn
    exact needs (.inr hrep)
  | warmupExit hs he => exact ⟨hi.shutting, hi.present, hi.needs⟩
  | exit =>
    have he := closeChannel_onExternExit hi.shutting
    refine ⟨by rw [he, closeChannel_isShuttingDown], fun h => ?_, ?_⟩
    · rw [he] at h
      exact absurd h (by decide)
    · rw [needsListener_closeChannel, closeChannel_listener]
      exact hi.needs
  | @offer r hs =>
    refine ⟨hi.shutting, hi.present, ?_⟩
    simp only [needsListener, Bool.or_eq_true]
    rintro (hl | hr)
    · exact needs (.inl hl)
    · rw [fatalPending_append, Bool.or_eq_true, decide_eq_true_eq] at hr
      rcases hr with hr | hr
      · exact needs (.inr hr)
      -- the report that is offered now is fatal: the condition puts the listener at its `select`
      · simpa [served, hr] using hc
  | giveUp hr hto =>
    refine ⟨hi.shutting, hi.present, ?_⟩
    simp only [needsListener, Bool.or_eq_true]
    rintro (hl | hr)
    · exact needs (.inl hl)
    · exact needs (.inr (fatalPending_of_eraseIdx hr))
  | loopExit he hl hpc =>
    refine ⟨hi.shutting, hi.present, fun hn => ?_⟩
    have hrep := fatalPending_of_needsListener (by simp [loopNeeds, ChangeLoop.doneAndReturn]) hn
    exact needs (.inr hrep)
  | @loopTick l writeOk hl hpc =>
    refine ⟨hi.shutting, hi.present, ?_⟩
    simp only [needsListener, loopNeeds, Option.any_some, Bool.or_eq_true, decide_eq_true_eq]
    rintro (hn | hr)
    -- the tick has brought the loop to a send: again the condition
    · have htick := tickNeeds_of_onTick hl hpc hn
      simpa [served, htick] using hc
    · exact needs (.inr hr)
  | loopGiveUp hl hpc =>
    refine ⟨hi.shutting, hi.present, fun hn => ?_⟩
    have hrep := fatalPending_of_needsListener (by simp [loopNeeds, ChangeLoop.doneAndReturn]) hn
    exact needs (.inr hrep)
  | takeFinished hsel hl hpc =>
    refine ⟨hi.shutting, fun _ => .inr ⟨true, rfl⟩, ?_⟩
    simp only [served, Bool.not_eq_true'] at hc
    simp [needsListener, loopNeeds, ChangeLoop.doneAndReturn, hc]
  | takeExit hsel he =>
    refine ⟨hi.shutting, fun h => absurd he (by simpa using h), fun hn => ?_⟩
    simp only [served, Bool.not_eq_true'] at hc
    exact absurd (show needsListener s = true from hn) (by simp [hc])
  | @takeReport i r hsel hr =>
    simp only [served, hr, Option.map_some, Bool.and_eq_true, Bool.or_eq_true, beq_iff_eq,
      Option.some.injEq, Bool.not_eq_true'] at hc
    obtain ⟨⟨hlev, hln⟩, hfp⟩ := hc
    refine ⟨hi.shutting, fun he => ?_, fun hn => ?_⟩
    -- a fatal report makes the listener close the channel; for another one it is closed already
    · rcases hlev with hlev | hlev
      · exact .inr ⟨false, by rw [hlev]; rfl⟩
      · exact absurd hlev (by simpa using he)
    · have hln' : loopNeeds
          { s with listener := afterReport r.level, reports := s.reports.eraseIdx i } = false := hln
      simp [needsListener, hln', hfp] at hn
  | takeLoopReport hsel hl hpc =>
    refine ⟨hi.shutting, fun _ => .inr ⟨false, rfl⟩, ?_⟩
    simp only [served, Bool.not_eq_true'] at hc
    simp [needsListener, loopNeeds, ChangeLoop.doneAndReturn, hc]
  | @close w hw =>
    have he := closeChannel_onExternExit hi.shutting
    refine ⟨?_, fun h => ?_, fun hn => ?_⟩
    · show s.closeChannel.isShuttingDown = s.closeChannel.onExternExit
      rw [he, closeChannel_isShuttingDown]
    · exact absurd (show s.closeChannel.onExternExit = false from h) (by simp [he])
    · have hn' : needsListener s.closeChannel = true := hn
      rw [needsListener_closeChannel] at hn'
      exact absurd (hi.needs hn') (by rw [hw]; simp)

/-! ### The main theorem and the run that abandons the end of the pattern -/

/-- **The listener serves the player until the exit channel is closed.**  In every state reached by
steps that meet `served`, while `On_extern_exit_c` is open the listener can receive (or has taken
the message after which it closes the channel), and neither the end of the pattern nor a fatal
report is offered with nobody left who will ever receive it. -/
theorem listener_serves (cv : F64.FloatConv) (drp : DbDataRatePattern) (acts : List PlayerAction)
    (s : Player) (hserved : StepsMeet (step cv) (fun s a => served s a) (init drp) acts)
    (hrun : run (step cv) (init drp) acts = some s) :
    (s.onExternExit = false → s.listener = .select ∨ ∃ w, s.listener = .closing w)
      ∧ ¬ Abandoned cv s := by
  have hinv : Inv s := by
    refine invariant_of_stepsMeet (I := Inv) ?_ (Inv.init drp) hserved hrun
    intro s a s' hi hc hs
    exact hi.step hc hs
  refine ⟨hinv.present, fun hab => ?_⟩
  have hsel : s.listener = .select := hinv.needs hab.1
  exact not_abandoned_of_select hsel hab

/-- A pattern of one value, not looping. -/
def oneValuePattern : DbDataRatePattern where
  freq := 10
  nomeasure := false
  drPattern :=
    { iter := none, data := some [.fin 1000], sha256 := [], loadParameters := ⟨.fin 0, .fin 1, ""⟩ }
  warmupTimeMs := 0
  intialMinRateKbits := .fin 0
  initialScale := .fin 1

/-- The machine of the runs on fixed inputs below; they convert nothing out of range. -/
def zeroConv : F64.FloatConv where
  toUint64 := fun _ => 0
  toUint32 := fun _ => 0
  toInt32 := fun _ => 0

/-- The end of the pattern is received and the exit channel closed. -/
theorem listener_serves_oneValue :
    ∃ s, run (step zeroConv) (init oneValuePattern)
        [.initTc true, .warmupOver, .loopTick true, .loopTick true, .takeFinished] = some s ∧
      (s.onExternExit = false → s.listener = .select ∨ ∃ w, s.listener = .closing w) ∧
      ¬ Abandoned zeroConv s :=
  ⟨_, rfl, listener_serves zeroConv oneValuePattern
    [.initTc true, .warmupOver, .loopTick true, .loopTick true, .takeFinished] _ (by decide +kernel)
    rfl⟩

/-- **One info report takes the listener away.**  It is received while the pattern plays; then the
pattern ends, and its end is offered for ever with the exit channel open. -/
theorem info_report_abandons_finish :
    ∃ s, run (step zeroConv) (init oneValuePattern)
        [.initTc true, .warmupOver, .offer ⟨.info, true⟩, .takeReport 0, .loopTick true,
          .loopTick true] = some s ∧
      s.onExternExit = false ∧ s.listener = .returned ∧ Abandoned zeroConv s :=
  ⟨_, rfl, rfl, rfl, abandoned_of_needs (by decide +kernel) (by decide)⟩

end Player

end Jens
