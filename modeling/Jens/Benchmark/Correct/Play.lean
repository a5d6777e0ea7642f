import Jens.Benchmark.Play
import Mathlib.Data.List.Basic

/-!
# Which session a skip is told of

`was_skipped` is only reset after a session of which it was told, and `ExitNoWait` closes whatever
player there is by then.  So a skip stays with its session as long as none comes while no session is
being played, or while one is that is going to fail, and none is still under way when the next
player is made (`InTime`).  The invariant is `Attributed`: the flag, or a `SkipSession` that is
about to set it, belongs to the session `Play` is at, and the player it is going to close to one
that was skipped.
-/

namespace Jens

/-- What is to be told of the session at place `i`, after skips while `skipped` were played. -/
def report (skipped : List ℕ) (i : ℕ) (v : SessionRun) : PlayEvent :=
  match v.persist, v.start, v.stats with
  | some sessionId, true, some (startT, endT) =>
    if i ∈ skipped then .userInterrupt i else .onPostSession i sessionId startT endT
  | some _, true, none => .errorGettingStats i
  | _, _, _ => .errorWhilePlaying i

/-- A later skip changes nothing. -/
theorem report_concat_of_ne {skipped : List ℕ} {i k : ℕ} (h : i ≠ k) (v : SessionRun) :
    report (skipped ++ [k]) i v = report skipped i v := by
  unfold report
  simp [h]

theorem mapIdx_report_concat {sessions : List SessionRun} {skipped : List ℕ} {k : ℕ}
    (h : sessions.length ≤ k) :
    sessions.mapIdx (report (skipped ++ [k])) = sessions.mapIdx (report skipped) := by
  apply List.ext_getElem (by simp)
  intro i hi _
  have hlt : i < sessions.length := by simpa using hi
  rw [List.getElem_mapIdx, List.getElem_mapIdx]
  exact report_concat_of_ne (by omega) _

theorem mapIdx_take_succ {α β : Type*} {l : List α} {i : ℕ} {v : α} (h : l[i]? = some v)
    (f : ℕ → α → β) : (l.take (i + 1)).mapIdx f = (l.take i).mapIdx f ++ [f i v] := by
  have hlt : i < l.length := (List.getElem?_eq_some_iff.mp h).1
  rw [List.take_add_one, h, Option.toList_some, List.mapIdx_concat, List.length_take,
    Nat.min_eq_left hlt.le]

namespace PlayPc

/-- The sessions something was told of. -/
def told (sessions : List SessionRun) : PlayPc → List SessionRun
  | .session i | .persist i _ | .newPlayer i _ _ | .start i _ _ | .wait i _ _ | .getStats i _ _
  | .checkSkipped i _ _ _ => sessions.take i
  | .resetSkipped i => sessions.take (i + 1)
  | .summary | .finished => sessions

/-- What `Play` knows of the session it is at. -/
def At (sessions : List SessionRun) : PlayPc → Prop
  | .session i => i ≤ sessions.length
  | .persist i v => sessions[i]? = some v
  | .newPlayer i v sessionId | .start i v sessionId =>
    sessions[i]? = some v ∧ v.persist = some sessionId
  | .wait i v sessionId | .getStats i v sessionId =>
    sessions[i]? = some v ∧ v.persist = some sessionId ∧ v.start = true
  | .checkSkipped i sessionId startT endT =>
    ∃ v, sessions[i]? = some v ∧ v.persist = some sessionId ∧ v.start = true ∧
      v.stats = some (startT, endT)
  | .resetSkipped i => i < sessions.length
  | .summary | .finished => True

/-- The session that has a player and of which nothing was told. -/
def current : PlayPc → Option ℕ
  | .start i _ _ | .wait i _ _ | .getStats i _ _ | .checkSkipped i _ _ _ => some i
  | _ => none

/-- The skip of a session is still going to be told of, or there is no session any more. -/
def Owns (skipped : List ℕ) : PlayPc → Prop
  | .start i v _ | .wait i v _ | .getStats i v _ =>
    v.start = true ∧ v.stats.isSome = true ∧ i ∈ skipped
  | .checkSkipped i _ _ _ => i ∈ skipped
  | .finished => True
  | _ => False

/-- It neither resets the flag nor is through. -/
def plain : PlayPc → Bool
  | .resetSkipped _ | .finished => false
  | _ => true

theorem ne_of_plain {pc : PlayPc} (h : pc.plain = true) :
    pc ≠ .finished ∧ ∀ i, pc ≠ .resetSkipped i := by
  constructor
  · rintro rfl
    cases h
  · rintro i rfl
    cases h

/-- Whoever owns a skip is at a session that was skipped, or through. -/
theorem current_of_owns {skipped : List ℕ} {pc : PlayPc} (h : pc.Owns skipped) :
    pc = .finished ∨ ∃ i, pc.current = some i ∧ i ∈ skipped := by
  cases pc with
  | start i v sessionId | wait i v sessionId | getStats i v sessionId =>
    exact .inr ⟨i, rfl, h.2.2⟩
  | checkSkipped i sessionId startT endT => exact .inr ⟨i, rfl, h⟩
  | finished => exact .inl rfl
  | _ => cases h

theorem of_playing {pc : PlayPc} {i : ℕ} {v : SessionRun} (h : pc.playing = some (i, v)) :
    pc.current = some i ∧ pc ≠ .finished ∧ (∀ sessions, pc.told sessions = sessions.take i) ∧
      ∀ skipped, pc.Owns skipped ↔ v.start = true ∧ v.stats.isSome = true ∧ i ∈ skipped := by
  cases pc with
  | start k u sessionId | wait k u sessionId =>
    obtain ⟨rfl, rfl⟩ : k = i ∧ u = v := by simpa [playing] using h
    exact ⟨rfl, by simp, fun _ => rfl, fun _ => Iff.rfl⟩
  | _ => cases h

end PlayPc

namespace Benchmark

open Steps

variable {bm : BenchmarkRun} {b c : Benchmark}

/-- A skip comes while a session is played that starts and whose stats can be read, has set the
flag when `post_play_session` looks at it, and has closed the player when another one is made.
Before the first player and at the end it does no harm. -/
def InTime (b : Benchmark) : BenchmarkAction → Prop
  | .signal => b.player = none ∨ b.play = .finished ∨
      ∃ p ∈ b.play.playing, p.2.start = true ∧ p.2.stats.isSome = true
  | .play =>
    match b.play with
    | .checkSkipped .. => b.skip ≠ .found
    | .newPlayer .. => b.skip ≠ .set
    | _ => True
  | _ => True

instance (a : BenchmarkAction) : Decidable (InTime b a) := by
  unfold InTime
  split
  · infer_instance
  · split <;> infer_instance
  · infer_instance

/-- What was to be told so far. -/
def expected (bm : BenchmarkRun) (b : Benchmark) : List PlayEvent :=
  (b.play.told bm.sessions).mapIdx (report b.skippedIn) ++
    if b.play = .finished then [.onPostBenchmark bm.benchmarkId] else []

/-- `ExitNoWait` is called on the player of a session while which was played a skip came, or when
the benchmark is over. -/
def ExitsSkipped (b : Benchmark) (a : BenchmarkAction) : Prop :=
  a = .exitNoWait → b.play = .finished ∨ ∀ p ∈ b.player, p.1 ∈ b.skippedIn

/-- The invariant. -/
structure Attributed (bm : BenchmarkRun) (b : Benchmark) : Prop where
  place : b.play.At bm.sessions
  player : ∀ i, b.play.current = some i → b.player.map Prod.fst = some i
  exits : b.skip = .set → b.play = .finished ∨ ∀ p ∈ b.player, p.1 ∈ b.skippedIn
  log : b.log = expected bm b
  flag : b.wasSkipped = true → b.play.Owns b.skippedIn ∨ ∃ i, b.play = .resetSkipped i
  found : b.skip = .found → b.play.Owns b.skippedIn
  skippedIn : ∀ i ∈ b.skippedIn, i < (b.play.told bm.sessions).length ∨
    b.play.current = some i ∧ (b.wasSkipped = true ∨ b.skip = .found)

theorem attributed_new (bm : BenchmarkRun) : Attributed bm new where
  place := Nat.zero_le _
  player _ h := by cases h
  exits h := by cases h
  log := rfl
  flag h := by cases h
  found h := by cases h
  skippedIn _ h := by cases h

/-- Until the end, a player that is going to be closed was skipped. -/
theorem Attributed.skipped_of_set (h : Attributed bm b) (hset : b.skip = .set)
    (hplay : b.play ≠ .finished) : ∀ p ∈ b.player, p.1 ∈ b.skippedIn :=
  (h.exits hset).resolve_left hplay

/-! ### `SkipSession` -/

theorem Attributed.setSkipped (h : Attributed bm b) (hskip : b.skip = .found) :
    Attributed bm { b with wasSkipped := true, skip := .set } where
  place := h.place
  player := h.player
  exits _ := by
    rcases PlayPc.current_of_owns (h.found hskip) with hover | ⟨i, hcur, hi⟩
    · exact .inl hover
    · -- the player is that of the session `Play` is at
      refine .inr fun p hp => ?_
      have hplace := h.player i hcur
      rw [Option.mem_def.mp hp] at hplace
      rwa [Option.some.inj hplace]
  log := h.log
  flag _ := .inl (h.found hskip)
  found h := by cases h
  skippedIn i hi := (h.skippedIn i hi).imp_right fun hcur => ⟨hcur.1, .inl rfl⟩

theorem Attributed.exitNoWait (h : Attributed bm b) (hskip : b.skip = .set) :
    Attributed bm
      { b with player := b.player.map (Prod.map id Player.closeChannel), skip := .idle } where
  place := h.place
  player i hcur := by
    rw [Option.map_map]
    exact h.player i hcur
  exits h := by cases h
  log := h.log
  flag := h.flag
  found h := by cases h
  skippedIn i hi := by
    refine (h.skippedIn i hi).imp_right fun ⟨hcur, hset⟩ => ⟨hcur, .inl ?_⟩
    simpa [hskip] using hset

/-- A signal while no session is played. -/
theorem Attributed.signal_of_not_playing (h : Attributed bm b)
    (hC : b.player = none ∨ b.play = .finished) (hplaying : b.play.playing = none)
    (hskip : b.skip = .idle) :
    Attributed bm { b with
      skip := if b.player.isSome then .found else .idle
      skippedIn := b.skippedIn ++ (b.play.playing.map Prod.fst).toList } := by
  have hsame : b.skippedIn ++ (b.play.playing.map Prod.fst).toList = b.skippedIn := by
    rw [hplaying]
    exact List.append_nil _
  rw [hsame]
  refine ⟨h.place, h.player, fun hset => ?_, h.log, h.flag, fun hfound => ?_, fun i hi => ?_⟩
  · split at hset <;> cases hset
  · rcases hC with hnone | hover
    · simp [hnone] at hfound
    · rw [PlayPc.Owns.eq_def, hover]
      trivial
  · refine (h.skippedIn i hi).imp_right fun ⟨hcur, hset⟩ => ⟨hcur, .inl ?_⟩
    simpa [hskip] using hset

/-- A signal while a session is played. -/
theorem Attributed.signal_of_playing (h : Attributed bm b) {i : ℕ} {v : SessionRun}
    (hplaying : b.play.playing = some (i, v)) (hstart : v.start = true)
    (hstats : v.stats.isSome = true) :
    Attributed bm { b with
      skip := if b.player.isSome then .found else .idle
      skippedIn := b.skippedIn ++ (b.play.playing.map Prod.fst).toList } := by
  obtain ⟨hcur, hover, htold, howns⟩ := PlayPc.of_playing hplaying
  have hnew : b.skippedIn ++ (b.play.playing.map Prod.fst).toList = b.skippedIn ++ [i] := by
    rw [hplaying]
    rfl
  have hlen : (b.play.told bm.sessions).length ≤ i := by
    rw [htold, List.length_take]
    exact Nat.min_le_left ..
  have hmine : b.play.Owns (b.skippedIn ++ [i]) :=
    (howns _).mpr ⟨hstart, hstats, List.mem_append_right _ (List.mem_singleton_self i)⟩
  have hplayer : b.player.isSome = true := by
    rw [← Option.isSome_map, h.player i hcur]
    rfl
  rw [hnew, if_pos hplayer]
  refine ⟨h.place, h.player, nofun, ?_, fun _ => .inl hmine, fun _ => hmine, ?_⟩
  · show b.log = (b.play.told bm.sessions).mapIdx (report (b.skippedIn ++ [i])) ++ _
    rw [mapIdx_report_concat hlen]
    exact h.log
  · intro k hk
    rcases List.mem_append.mp hk with hk | hk
    · exact (h.skippedIn k hk).imp_right fun hown => ⟨hown.1, .inr rfl⟩
    · rw [List.mem_singleton.mp hk]
      exact .inr ⟨hcur, .inr rfl⟩

/-! ### `Play` -/

variable {pc pc' : PlayPc} {i : ℕ} {v : SessionRun}

/-- No skip is under way. -/
theorem Attributed.clean (h : Attributed bm b) (howns : ¬ b.play.Owns b.skippedIn)
    (hplain : b.play.plain = true) : b.wasSkipped = false ∧ b.skip ≠ .found := by
  refine ⟨?_, fun hfound => howns (h.found hfound)⟩
  rw [← Bool.not_eq_true]
  intro hflag
  rcases h.flag hflag with hown | ⟨i, hi⟩
  · exact howns hown
  · exact (PlayPc.ne_of_plain hplain).2 i hi

/-- `Play` goes on with its session and tells nothing. -/
theorem Attributed.goOn (h : Attributed bm b) {player : Option (ℕ × Player)}
    (hat : pc.At bm.sessions) (hplayer : ∀ i, pc.current = some i → player.map Prod.fst = some i)
    (hexits : player = b.player ∨ b.skip ≠ .set)
    (htold : pc.told bm.sessions = b.play.told bm.sessions)
    (howns : b.play.Owns b.skippedIn → pc.Owns b.skippedIn)
    (hcur : b.play.current = none ∨ pc.current = b.play.current)
    (hplain : b.play.plain = true) (hplain' : pc.plain = true) :
    Attributed bm { b with player := player, play := pc } := by
  obtain ⟨hunfinished, hreset⟩ := PlayPc.ne_of_plain hplain
  obtain ⟨hunfinished', -⟩ := PlayPc.ne_of_plain hplain'
  refine ⟨hat, hplayer, fun hset => ?_, ?_, fun hflag => ?_, fun hset => howns (h.found hset),
    fun k hk => ?_⟩
  · rcases hexits with rfl | hne
    · exact .inr (h.skipped_of_set hset hunfinished)
    · exact absurd hset hne
  · rw [h.log, expected, expected, htold, if_neg hunfinished, if_neg hunfinished']
  · rcases h.flag hflag with hown | ⟨i, hi⟩
    · exact .inl (howns hown)
    · exact absurd hi (hreset i)
  · rw [htold]
    apply (h.skippedIn k hk).imp_right
    intro hown
    rcases hcur with hnone | hsame
    · rw [hnone] at hown
      cases hown.1
    · exact ⟨hsame.trans hown.1, hown.2⟩

/-- `Play` tells of the session at place `i`. -/
theorem Attributed.tell (h : Attributed bm b) {e : PlayEvent} (hi : bm.sessions[i]? = some v)
    (hreport : report b.skippedIn i v = e)
    (htold : b.play.told bm.sessions = bm.sessions.take i)
    (hcur : b.play.current = none ∨ b.play.current = some i) (hplain : b.play.plain = true)
    (hpc : pc = .session (i + 1) ∧ b.wasSkipped = false ∨ pc = .resetSkipped i)
    (hfound : b.skip ≠ .found) :
    Attributed bm { b with log := b.log ++ [e], play := pc } := by
  have hlt : i < bm.sessions.length := (List.getElem?_eq_some_iff.mp hi).1
  have hpc' : pc.At bm.sessions ∧ pc.current = none ∧ pc ≠ .finished ∧
      pc.told bm.sessions = bm.sessions.take (i + 1) := by
    rcases hpc with ⟨rfl, -⟩ | rfl
    · exact ⟨hlt, rfl, by simp, rfl⟩
    · exact ⟨hlt, rfl, by simp, rfl⟩
  obtain ⟨hat, hnone, hunfinished', htold'⟩ := hpc'
  refine ⟨hat, fun k hk => ?_, fun hset => ?_, ?_, fun hflag => ?_,
    fun hset => absurd hset hfound, fun k hk => ?_⟩
  · rw [hnone] at hk
    cases hk
  · exact .inr (h.skipped_of_set hset (PlayPc.ne_of_plain hplain).1)
  · rw [h.log, expected, expected, htold, htold', if_neg (PlayPc.ne_of_plain hplain).1,
      if_neg hunfinished', mapIdx_take_succ hi, hreport, List.append_nil, List.append_nil]
  · rcases hpc with ⟨-, hclean⟩ | rfl
    · rw [hclean] at hflag
      cases hflag
    · exact .inr ⟨i, rfl⟩
  · -- what was told of earlier sessions stays, and of this one it was told now
    left
    have hold := h.skippedIn k hk
    rw [htold, List.length_take] at hold
    rw [htold', List.length_take]
    rcases hold with hlt' | ⟨hk, -⟩
    · omega
    · rw [hk] at hcur
      have hki : k = i := by simpa using hcur
      omega

/-- `Play` tells of an error and goes on to the next session. -/
theorem Attributed.tellError (h : Attributed bm b) {e : PlayEvent} (hi : bm.sessions[i]? = some v)
    (hreport : report b.skippedIn i v = e)
    (htold : b.play.told bm.sessions = bm.sessions.take i)
    (hcur : b.play.current = none ∨ b.play.current = some i) (hplain : b.play.plain = true)
    (howns : ¬ b.play.Owns b.skippedIn) :
    Attributed bm { b with log := b.log ++ [e], play := .session (i + 1) } := by
  obtain ⟨hflag, hfound⟩ := h.clean howns hplain
  exact h.tell hi hreport htold hcur hplain (.inl ⟨rfl, hflag⟩) hfound

/-- When `Play` looks at the flag, it says whether its session was skipped. -/
theorem Attributed.mem_skippedIn_iff {sessionId startT endT : ℤ} (h : Attributed bm b)
    (hplay : b.play = .checkSkipped i sessionId startT endT) (hfound : b.skip ≠ .found) :
    i ∈ b.skippedIn ↔ b.wasSkipped = true := by
  constructor
  · intro hmem
    have hold := h.skippedIn i hmem
    rw [hplay, PlayPc.told, List.length_take] at hold
    rcases hold with hlt | ⟨-, hflag | hset⟩
    · omega
    · exact hflag
    · exact absurd hset hfound
  · intro hflag
    rcases h.flag hflag with hown | ⟨k, hk⟩
    · rwa [hplay] at hown
    · rw [hplay] at hk
      cases hk

/-- The flag is reset. -/
theorem Attributed.reset (h : Attributed bm b) (hplay : b.play = .resetSkipped i) :
    Attributed bm { b with wasSkipped := false, play := .session (i + 1) } := by
  have hat := h.place
  have hlog := h.log
  have hown := h.found
  rw [hplay] at hat hown
  rw [expected, hplay] at hlog
  refine ⟨hat, nofun, fun hset => ?_, hlog,
    fun hflag => absurd hflag Bool.false_ne_true, hown, fun k hk => ?_⟩
  · refine .inr (h.skipped_of_set hset ?_)
    rw [hplay]
    nofun
  have hold := h.skippedIn k hk
  rw [hplay] at hold
  simpa [PlayPc.current, PlayPc.told] using hold

/-- `Play` tells that the benchmark is over. -/
theorem Attributed.finish (h : Attributed bm b) (hplay : b.play = .summary) :
    Attributed bm
      { b with log := b.log ++ [.onPostBenchmark bm.benchmarkId], play := .finished } := by
  have hlog : b.log = bm.sessions.mapIdx (report b.skippedIn) := by
    apply h.log.trans
    rw [expected, hplay, if_neg (PlayPc.ne_of_plain rfl).1]
    exact List.append_nil _
  refine ⟨trivial, nofun, fun _ => .inl rfl, ?_, fun _ => .inl trivial,
    fun _ => trivial, fun k hk => ?_⟩
  · rw [hlog, expected, if_pos rfl]
    rfl
  · have hold := h.skippedIn k hk
    rw [hplay] at hold
    simpa [PlayPc.current, PlayPc.told] using hold

theorem attributed_of_playStep (h : Attributed bm b) (hC : InTime b .play)
    (hstep : b.playStep bm b.play = some c) : Attributed bm c := by
  obtain ⟨player, wasSkipped, play, skip, log, skippedIn⟩ := b
  have hat := h.place
  cases play with
  | session i =>
    cases hi : bm.sessions[i]? with
    | some v =>
      simp only [playStep, hi] at hstep
      rw [← Option.some.inj hstep]
      exact h.goOn hi (by simp [PlayPc.current]) (.inl rfl) rfl id (.inl rfl) rfl rfl
    | none =>
      simp only [playStep, hi] at hstep
      rw [← Option.some.inj hstep]
      have hall : bm.sessions.take i = bm.sessions :=
        List.take_of_length_le (List.getElem?_eq_none_iff.mp hi)
      exact h.goOn trivial (by simp [PlayPc.current]) (.inl rfl) hall.symm id (.inl rfl) rfl rfl
  | persist i v =>
    have hi : bm.sessions[i]? = some v := hat
    cases hpersist : v.persist with
    | some sessionId =>
      simp only [playStep, hpersist] at hstep
      rw [← Option.some.inj hstep]
      exact h.goOn ⟨hi, hpersist⟩ (by simp [PlayPc.current]) (.inl rfl) rfl id (.inl rfl) rfl rfl
    | none =>
      simp only [playStep, hpersist] at hstep
      have hreport : report skippedIn i v = .errorWhilePlaying i := by
        rw [report, hpersist]
      rw [← Option.some.inj hstep]
      exact h.tellError hi hreport rfl (.inl rfl) rfl id
  | newPlayer i v sessionId =>
    simp only [playStep] at hstep
    rw [← Option.some.inj hstep]
    exact h.goOn hat (by simp [PlayPc.current]) (.inr hC) rfl False.elim (.inl rfl) rfl rfl
  | start i v sessionId =>
    obtain ⟨hi, hpersist⟩ := hat
    cases hstart : v.start with
    | true =>
      simp only [playStep, hstart, if_true] at hstep
      rw [← Option.some.inj hstep]
      exact h.goOn ⟨hi, hpersist, hstart⟩ h.player (.inl rfl) rfl id (.inr rfl) rfl rfl
    | false =>
      simp only [playStep, hstart] at hstep
      have howns : ¬ (PlayPc.start i v sessionId).Owns skippedIn := by
        simp [PlayPc.Owns, hstart]
      have hreport : report skippedIn i v = .errorWhilePlaying i := by
        rw [report, hpersist, hstart]
      rw [← Option.some.inj hstep]
      exact h.tellError hi hreport rfl (.inr rfl) rfl howns
  | wait i v sessionId =>
    simp only [playStep] at hstep
    rw [← Option.some.inj hstep]
    exact h.goOn hat h.player (.inl rfl) rfl id (.inr rfl) rfl rfl
  | getStats i v sessionId =>
    obtain ⟨hi, hpersist, hstart⟩ := hat
    cases hstats : v.stats with
    | some times =>
      simp only [playStep, hstats] at hstep
      rw [← Option.some.inj hstep]
      exact h.goOn ⟨v, hi, hpersist, hstart, hstats⟩ h.player (.inl rfl) rfl
        (fun hown => hown.2.2) (.inr rfl) rfl rfl
    | none =>
      simp only [playStep, hstats] at hstep
      have howns : ¬ (PlayPc.getStats i v sessionId).Owns skippedIn := by
        simp [PlayPc.Owns, hstats]
      have hreport : report skippedIn i v = .errorGettingStats i := by
        rw [report, hpersist, hstart, hstats]
      rw [← Option.some.inj hstep]
      exact h.tellError hi hreport rfl (.inr rfl) rfl howns
  | checkSkipped i sessionId startT endT =>
    obtain ⟨v, hi, hpersist, hstart, hstats⟩ := hat
    have hfound : skip ≠ .found := hC
    have hmine : i ∈ skippedIn ↔ wasSkipped = true := h.mem_skippedIn_iff rfl hfound
    cases wasSkipped with
    | true =>
      have hreport : report skippedIn i v = .userInterrupt i := by
        simp [report, hpersist, hstart, hstats, hmine]
      simp only [playStep, if_true] at hstep
      rw [← Option.some.inj hstep]
      exact h.tell hi hreport rfl (.inr rfl) rfl (.inr rfl) hfound
    | false =>
      have hreport : report skippedIn i v = .onPostSession i sessionId startT endT := by
        simp [report, hpersist, hstart, hstats, hmine]
      simp only [playStep, Bool.false_eq_true, if_false] at hstep
      rw [← Option.some.inj hstep]
      exact h.tell hi hreport rfl (.inr rfl) rfl (.inl ⟨rfl, rfl⟩) hfound
  | resetSkipped i =>
    simp only [playStep] at hstep
    rw [← Option.some.inj hstep]
    exact h.reset rfl
  | summary =>
    have hflag : wasSkipped = false := (h.clean id rfl).1
    simp only [playStep, hflag, Bool.false_eq_true, if_false] at hstep
    rw [← Option.some.inj hstep]
    exact hflag ▸ h.finish rfl
  | finished => cases hstep

/-! ### Runs -/

theorem attributed_of_step {a : BenchmarkAction} (h : Attributed bm b) (hC : InTime b a)
    (hstep : step bm b a = some c) : Attributed bm c := by
  cases a with
  | play => exact attributed_of_playStep h hC hstep
  | signal =>
    obtain ⟨hskip, hc⟩ := Option.ite_none_right_eq_some.mp hstep
    rw [← Option.some.inj hc]
    cases hplaying : b.play.playing with
    | none =>
      have hharmless : b.player = none ∨ b.play = .finished := by
        rcases hC with hnone | hover | ⟨p, hp, -⟩
        · exact .inl hnone
        · exact .inr hover
        · rw [hplaying] at hp
          cases hp
      exact hplaying ▸ h.signal_of_not_playing hharmless hplaying hskip
    | some p =>
      have hends : p.2.start = true ∧ p.2.stats.isSome = true := by
        rcases hC with hnone | hover | ⟨q, hq, hends⟩
        · have hplayer := h.player p.1 (PlayPc.of_playing hplaying).1
          rw [hnone] at hplayer
          cases hplayer
        · exact absurd hover (PlayPc.of_playing hplaying).2.1
        · rwa [Option.some.inj (hplaying.symm.trans hq)]
      exact hplaying ▸ h.signal_of_playing hplaying hends.1 hends.2
  | setSkipped =>
    obtain ⟨hskip, hc⟩ := Option.ite_none_right_eq_some.mp hstep
    rw [← Option.some.inj hc]
    exact h.setSkipped hskip
  | exitNoWait =>
    obtain ⟨hskip, hc⟩ := Option.ite_none_right_eq_some.mp hstep
    rw [← Option.some.inj hc]
    exact h.exitNoWait hskip

/-- **A skip that comes in time is told of its own session and ends it, and no other.**
`OnPostSession` is run for the sessions that started, whose stats could be read and while which were
played no skip came; at the end `OnPostBenchmark` is run; and until then `ExitNoWait` is called on
the players of skipped sessions only. -/
theorem log_eq_expected {acts : List BenchmarkAction} (hrun : run (step bm) new acts = some b)
    (hC : StepsMeet (step bm) InTime new acts) :
    b.log = expected bm b ∧ StepsMeet (step bm) ExitsSkipped new acts := by
  refine ⟨?_, ?_⟩
  · exact (invariant_of_stepsMeet (I := Attributed bm) (fun _ _ _ => attributed_of_step)
      (attributed_new bm) hC hrun).log
  · refine stepsMeet_of_invariant (I := Attributed bm) (fun _ _ _ => attributed_of_step) ?_
      (attributed_new bm) hC hrun
    rintro b a c h - hstep rfl
    obtain ⟨hskip, -⟩ := Option.ite_none_right_eq_some.mp hstep
    exact h.exits hskip

/-- Two sessions of a benchmark. -/
def twoSessions (started : Bool) : BenchmarkRun where
  benchmarkId := 5
  sessions :=
    [{ session := { childDrp := newDbDataRatePattern }, persist := some 1, start := started,
       stats := some (10, 20) },
     { session := { childDrp := newDbDataRatePattern }, persist := some 2, start := true,
       stats := some (30, 40) }]

/-- The first session is skipped while it is played. -/
theorem log_eq_expected_twoSessions :
    ∃ b, run (step (twoSessions true)) new (List.replicate 4 .play ++
        [.signal, .setSkipped, .exitNoWait] ++ List.replicate 13 .play) = some b ∧
      b.log = expected (twoSessions true) b ∧
      StepsMeet (step (twoSessions true)) ExitsSkipped new (List.replicate 4 .play ++
        [.signal, .setSkipped, .exitNoWait] ++ List.replicate 13 .play) := by
  have hsome : (run (step (twoSessions true)) new (List.replicate 4 .play ++
      [.signal, .setSkipped, .exitNoWait] ++ List.replicate 13 .play)).isSome = true := by
    decide +kernel
  obtain ⟨b, hb⟩ := Option.isSome_iff_exists.mp hsome
  exact ⟨b, hb, log_eq_expected hb (by decide +kernel)⟩

/-- **A skip while a session starts in vain is told of the next session**, which was played to its
end. -/
theorem skip_of_failed_session :
    (run (step (twoSessions false)) new (List.replicate 3 .play ++
        [.signal, .setSkipped, .exitNoWait] ++ List.replicate 11 .play)).map
      (fun b => (b.log, b.skippedIn, b.play)) =
    some ([.errorWhilePlaying 0, .userInterrupt 1, .onPostBenchmark 5], [0], .finished) := by
  decide +kernel

end Benchmark

end Jens
