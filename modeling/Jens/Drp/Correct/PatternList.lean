import Jens.Drp.Correct.PatternProvider
import Jens.Drp.PatternList

/-!
# Which patterns a list has

A list is made just if no provider panics, and it has the patterns of those that gave one, in
their order (`newDrpList_eq_ok_iff`); of a folder it has the files that load
(`newDrpListFromFolder_eq_ok`), and there is one if a file loads and no header makes
`readDRPCommentPath` panic (`newDrpListFromFolder_of_loaded`).
-/

namespace Jens

/-- An answer that `NewDrpList` goes on after. -/
def Acceptable (skipOnFaultyDrp : Bool) (answer : Except Failure DataRatePattern) : Prop :=
  (∃ drp, answer = .ok drp) ∨ skipOnFaultyDrp = true ∧ ∃ err, answer = .error (.error err)

theorem appendAnswer_eq_ok_iff {skip : Bool} {drps drps' : List DataRatePattern}
    {answer : Except Failure DataRatePattern} :
    appendAnswer skip drps answer = .ok drps' ↔
      Acceptable skip answer ∧ drps' = drps ++ answer.toOption.toList := by
  match answer with
  | .ok drp => simp [appendAnswer, Acceptable, Except.toOption, eq_comm]
  | .error (.panic msg) => simp [appendAnswer, Acceptable]
  | .error (.error err) =>
    cases skip <;> simp [appendAnswer, Acceptable, Except.toOption, eq_comm]

/-- The loop collects the patterns, in the order of the answers. -/
theorem foldlM_appendAnswer_eq_ok_iff {β : Type} {skip : Bool}
    {answer : β → Except Failure DataRatePattern} {vs : List β}
    {drps drps' : List DataRatePattern} :
    vs.foldlM (fun drps v => appendAnswer skip drps (answer v)) drps = .ok drps' ↔
      (∀ v ∈ vs, Acceptable skip (answer v)) ∧
        drps' = drps ++ vs.filterMap fun v => (answer v).toOption := by
  induction vs generalizing drps with
  | nil =>
    rw [List.foldlM_nil, List.filterMap_nil, List.append_nil]
    constructor
    · intro h
      exact ⟨fun v hv => absurd hv List.not_mem_nil, (Except.ok.inj h).symm⟩
    · rintro ⟨-, rfl⟩
      rfl
  | cons v vs ih =>
    rw [List.foldlM_cons, Except.bind_eq_ok]
    have hcons : (v :: vs).filterMap (fun v => (answer v).toOption) =
        (answer v).toOption.toList ++ vs.filterMap fun v => (answer v).toOption := by
      rw [List.filterMap_cons]
      cases (answer v).toOption <;> rfl
    rw [hcons, List.forall_mem_cons, ← List.append_assoc]
    constructor
    · rintro ⟨drps₁, h₁, h⟩
      obtain ⟨hv, rfl⟩ := appendAnswer_eq_ok_iff.mp h₁
      obtain ⟨hvs, rfl⟩ := ih.mp h
      exact ⟨⟨hv, hvs⟩, rfl⟩
    · rintro ⟨⟨hv, hvs⟩, rfl⟩
      exact ⟨_, appendAnswer_eq_ok_iff.mpr ⟨hv, rfl⟩, ih.mpr ⟨hvs, rfl⟩⟩

/-- **A list has the patterns of its providers**, in their order, and starts at the first. -/
theorem newDrpList_eq_ok_iff {providers : List DataRatePatternProvider} {args : List (F64 × F64)}
    {skip : Bool} {l : DrpListT} :
    newDrpList providers args skip = .ok l ↔
      (providers.length = args.length ∨ args.length = 1) ∧
      (∀ v ∈ providers.zipIdx, Acceptable skip (answerOf args v)) ∧ l.selected = 0 ∧
      l.drps ≠ [] ∧ l.drps = providers.zipIdx.filterMap fun v => (answerOf args v).toOption := by
  rw [newDrpList, Except.ite_error_eq_ok]
  refine and_congr (by tauto) ?_
  cases hfold : providers.zipIdx.foldlM
      (fun drps v => appendAnswer skip drps (answerOf args v)) newDrpListT.drps with
  | error e =>
    refine iff_of_false (fun h => by cases h) ?_
    rintro ⟨hall, -⟩
    rw [foldlM_appendAnswer_eq_ok_iff.mpr ⟨hall, rfl⟩] at hfold
    cases hfold
  | ok drps =>
    obtain ⟨hall, rfl⟩ := foldlM_appendAnswer_eq_ok_iff.mp hfold
    dsimp only
    rw [Except.ite_error_eq_ok]
    constructor
    · rintro ⟨hlen, h⟩
      obtain rfl := Except.ok.inj h
      exact ⟨hall, rfl, fun hnil => hlen (by rw [show newDrpListT.drps ++ _ = [] from hnil]; rfl),
        rfl⟩
    · rintro ⟨-, hsel, hne, hdrps⟩
      refine ⟨fun hlen => hne ?_, ?_⟩
      · rw [hdrps]
        exact List.length_eq_zero_iff.mp (Nat.le_zero.mp hlen)
      · obtain ⟨ds, sel⟩ := l
        change sel = 0 at hsel
        change ds = _ at hdrps
        subst hsel hdrps
        rfl

section Folder

variable {os : Os} {glob : String → Except String (List String)} {path : String} {l : DrpListT}

/-- The patterns of the files that load. -/
def loaded (os : Os) (files : List String) : List DataRatePattern :=
  files.filterMap fun file => (provide os file (.fin 1) (.fin 0)).toOption

theorem filterMap_answerOf (os : Os) (files : List String) :
    (files.map (provide os)).zipIdx.filterMap
      (fun v => (answerOf [(.fin 1, .fin 0)] v).toOption) = loaded os files := by
  rw [List.zipIdx_map, List.filterMap_map, loaded]
  conv_rhs => rw [← List.zipIdx_map_fst 0 files, List.filterMap_map]
  rfl

/-- No line at the start of the file makes `readDRPCommentPath` panic. -/
def HeaderRead (os : Os) (path : String) : Prop :=
  ∀ data, os.readFile path = .ok data → HeaderSafe (headerLines (data.toList.splitOn '\n'))

/-- Then nothing else does. -/
theorem provide_ne_panic {file : String} (h : HeaderRead os file) (scale minrate : F64)
    (msg : String) : provide os file scale minrate ≠ .error (.panic msg) := by
  intro hpanic
  rw [provide] at hpanic
  split_ifs at hpanic
  · cases hpanic
  · split at hpanic
    case h_1 => cases hpanic
    case h_2 =>
      split at hpanic
      case h_1 => cases hpanic
      case h_2 drp hdrp =>
        -- the file has been read and its rows converted; the comments are left
        have hsafe := (readDrpCommentPath_never_panics_iff os file drp).mpr h
        cases hread : readDrpCommentPath os file drp with
        | ok drp' => simp [hread, Except.map] at hpanic
        | error e =>
          rw [hread] at hpanic
          obtain rfl : e = .panic msg := Except.error.inj hpanic
          exact hsafe msg hread

/-- **The list of a folder is made** if its headers can be read and one of its files loads. -/
theorem newDrpListFromFolder_of_loaded {files : List String}
    (hglob : glob (path ++ "/*.csv") = .ok files) (hheaders : ∀ file ∈ files, HeaderRead os file)
    (hne : loaded os files ≠ []) :
    newDrpListFromFolder os glob path = .ok ⟨loaded os files, 0⟩ := by
  rw [newDrpListFromFolder, hglob]
  refine newDrpList_eq_ok_iff.mpr ⟨.inr rfl, ?_, rfl, hne, (filterMap_answerOf os files).symm⟩
  rintro ⟨provider, i⟩ hmem
  obtain ⟨file, hfile, rfl⟩ := List.mem_map.mp (List.fst_mem_of_mem_zipIdx hmem)
  -- there is one pair of parameters, so it is used for every file
  have hanswer : answerOf [(.fin 1, .fin 0)] (provide os file, i) =
      provide os file (.fin 1) (.fin 0) := rfl
  rw [hanswer]
  match hprovide : provide os file (.fin 1) (.fin 0) with
  | .ok drp => exact .inl ⟨drp, rfl⟩
  | .error (.error err) => exact .inr ⟨rfl, err, rfl⟩
  | .error (.panic msg) =>
    exact absurd hprovide (provide_ne_panic (hheaders file hfile) _ _ msg)

/-- **The list of a folder has the files that load**, in the order of `Glob`. -/
theorem newDrpListFromFolder_eq_ok (h : newDrpListFromFolder os glob path = .ok l) :
    ∃ files, glob (path ++ "/*.csv") = .ok files ∧ l = ⟨loaded os files, 0⟩ ∧
      loaded os files ≠ [] := by
  rw [newDrpListFromFolder] at h
  cases hglob : glob (path ++ "/*.csv") with
  | error err => simp [hglob] at h
  | ok files =>
    rw [hglob] at h
    obtain ⟨-, -, hsel, hne, hdrps⟩ := newDrpList_eq_ok_iff.mp h
    rw [filterMap_answerOf] at hdrps
    refine ⟨files, rfl, ?_, hdrps ▸ hne⟩
    obtain ⟨ds, sel⟩ := l
    change sel = 0 at hsel
    change ds = _ at hdrps
    subst hsel hdrps
    rfl

/-- A pattern that has loaded has data. -/
theorem data_of_mem_loaded {files : List String} {drp : DataRatePattern}
    (h : drp ∈ loaded os files) : ∃ vs, drp.data = some vs := by
  obtain ⟨file, -, hfile⟩ := List.mem_filterMap.mp h
  have hprovide := Except.toOption_eq_some_iff.mp hfile
  obtain ⟨-, vs, -, -, -, hdata, -⟩ := data_of_provide hprovide
  exact ⟨vs, hdata⟩

end Folder

end Jens
