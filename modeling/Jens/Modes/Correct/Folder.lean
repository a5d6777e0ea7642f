import Jens.Drp.Correct.PatternList
import Jens.Drp.Correct.PatternIterator
import Jens.Drp.Correct.Statistics
import Jens.Modes.Folder

/-!
# What the folder mode shows

The keys move a mark over the patterns of the folder (`selectedAfter`), and it never leaves them.
Whenever no key is handled and the boxes have printed, the list, the details and the chart are
those of the pattern at the mark (`shown_of_run`); and however a key finds the boxes, its handling
comes to an end (`settles_of_run`).  The invariant is `Sound`.
-/

namespace Jens

open Steps

/-! ### The mark -/

/-- Where the mark is after a key, of `n` patterns. -/
def moved (n i : ℕ) : FolderKey → ℕ
  | .arrowUp => i - 1
  | .arrowDown => if i + 1 < n then i + 1 else i
  | _ => i

/-- Where the mark is after the keys. -/
def selectedAfter (n : ℕ) (keys : List FolderKey) : ℕ := keys.foldl (moved n) 0

theorem moved_lt {n i : ℕ} (hi : i < n) (k : FolderKey) : moved n i k < n := by
  cases k <;> simp only [moved] <;> try split_ifs
  all_goals omega

theorem selectedAfter_lt {n : ℕ} (hn : 0 < n) (keys : List FolderKey) :
    selectedAfter n keys < n := by
  induction keys using List.reverseRecOn with
  | nil => exact hn
  | append_singleton keys k ih =>
    rw [selectedAfter, List.foldl_append]
    exact moved_lt ih k

section List

variable {drps : List DataRatePattern} {i : ℕ}

theorem getSelected_mk (drps : List DataRatePattern) (i : ℕ) :
    DrpListT.getSelected ⟨drps, i⟩ = drps[i]? := readIndex_natCast drps i

theorem folderLayout_mk (hi : i < drps.length) :
    folderLayout ⟨drps, i⟩ = some ⟨drps[i].name, i⟩ := by
  have hchart : readIndex (List.range drps.length) (i : ℤ) = some i := by
    rw [readIndex_natCast, List.getElem?_range hi]
  simp [folderLayout, getSelected_mk, List.getElem?_eq_getElem hi, hchart]

/-- `navigator` keeps the mark on the patterns. -/
theorem select_mk (hi : i < drps.length) (k : FolderKey) :
    FolderUI.select ⟨drps, i⟩ k = ⟨drps, moved drps.length i k⟩ := by
  cases k with
  | arrowUp =>
    simp only [FolderUI.select, moved]
    split_ifs with h
    · rw [show i = 0 by omega]
    · rw [show ((i - 1 : ℕ) : ℤ) = (i : ℤ) - 1 by omega]
  | arrowDown =>
    simp only [FolderUI.select, moved]
    split_ifs with h h' h'
    · omega
    · rfl
    · rw [show ((i + 1 : ℕ) : ℤ) = (i : ℤ) + 1 by omega]
    · omega
  | exit => rfl
  | other => rfl

end List

namespace FolderPc

/-- The box of the list has been sent what there is to show. -/
def listSent : FolderPc → Bool
  | .idle | .firstDetails _ | .layout => true
  | _ => false

/-- So has the box of the details. -/
def detailsSent : FolderPc → Bool
  | .idle | .list _ | .layout => true
  | _ => false

/-- The layout is drawn. -/
def drawn : FolderPc → Bool
  | .idle | .firstList _ | .firstDetails _ => true
  | _ => false

end FolderPc

namespace FolderUI

variable {label : F64 → String} {drps : List DataRatePattern} {keys : List FolderKey}
  {s t : FolderUI} {a : FolderAction}

/-! ### What a step does -/

/-- A step in which nothing panics. -/
inductive Moves (label : F64 → String) (s : FolderUI) : FolderAction → FolderUI → Prop
  | firstList {l : DrpListT} {drp : DataRatePattern} : s.pc = .firstList l → s.list.event = none →
      s.list.returned = false → s.drpList.getSelected = some drp →
      Moves label s .send { s with list.event := some l, pc := .firstDetails drp }
  | firstDetails {drp : DataRatePattern} : s.pc = .firstDetails drp → s.details.event = none →
      s.details.returned = false →
      Moves label s .send { s with details.event := some drp, pc := .idle }
  | details {drp : DataRatePattern} : s.pc = .details drp → s.details.event = none →
      s.details.returned = false →
      Moves label s .send { s with details.event := some drp, pc := .list s.drpList }
  | list {l : DrpListT} : s.pc = .list l → s.list.event = none → s.list.returned = false →
      Moves label s .send { s with list.event := some l, pc := .layout }
  | key {k : FolderKey} {drp : DataRatePattern} : s.pc = .idle →
      (select s.drpList k).getSelected = some drp →
      Moves label s (.key k)
        { s with
          cancelled := s.cancelled || k == FolderKey.exit
          drpList := select s.drpList k
          pc := .details drp }
  | layout {layout : FolderLayout} : s.pc = .layout → folderLayout s.drpList = some layout →
      Moves label s .layout { s with layout := layout, pc := .idle }
  | printList {l : DrpListT} : s.list.event = some l →
      Moves label s .printList
        { s with list := { s.list with event := none, text := drpListText l } }
  | printDetails {drp : DataRatePattern} {text : String} : s.details.event = some drp →
      drpDetailsText label drp = .ok text →
      Moves label s .printDetails
        { s with details := { s.details with event := none, text := text } }
  | listReturns : s.cancelled = true → s.list.event = none →
      Moves label s .listReturns { s with list.returned := true }
  | detailsReturns : s.cancelled = true → s.details.event = none →
      Moves label s .detailsReturns { s with details.returned := true }
  | returns : s.cancelled = true → s.pc.inTermdash = true →
      Moves label s .returns { s with pc := .returned }

theorem map_receive_eq_some {α β γ : Type} {box : TextBox α β} {event : α} {f : TextBox α β → γ}
    {c : γ} (h : (receive box event).map f = some c) :
    box.event = none ∧ box.returned = false ∧ c = f { box with event := some event } := by
  unfold receive at h
  split at h
  · rename_i hevent hreturned
    exact ⟨hevent, hreturned, (Option.some.inj h).symm⟩
  · cases h

/-- The folder mode after the keys. -/
structure Sound (label : F64 → String) (drps : List DataRatePattern) (keys : List FolderKey)
    (s : FolderUI) : Prop where
  selected : s.drpList = ⟨drps, selectedAfter drps.length keys⟩
  panicked : s.panicked = none
  carriedList : ∀ l, s.pc = .firstList l ∨ s.pc = .list l → l = s.drpList
  carriedDetails : ∀ drp, s.pc = .firstDetails drp ∨ s.pc = .details drp →
    s.drpList.getSelected = some drp
  event : ∀ drp, s.details.event = some drp → drp ∈ drps
  list : s.pc.listSent = true → s.list.event = some s.drpList ∨
    s.list.event = none ∧ s.list.text = drpListText s.drpList
  details : s.pc.detailsSent = true → ∃ drp, s.drpList.getSelected = some drp ∧
    (s.details.event = some drp ∨
      s.details.event = none ∧ drpDetailsText label drp = .ok s.details.text)
  layout : s.pc.drawn = true → folderLayout s.drpList = some s.layout
  listReturned : s.list.returned = true → s.cancelled = true
  detailsReturned : s.details.returned = true → s.cancelled = true
  returned : s.pc = .returned → s.cancelled = true

section Step

variable (hne : drps ≠ []) (hdata : ∀ drp ∈ drps, ∃ vs, drp.data = some vs)

include hne

theorem Sound.getSelected (h : Sound label drps keys s) :
    ∃ drp ∈ drps, s.drpList.getSelected = some drp := by
  have hi := selectedAfter_lt (List.length_pos_iff.mpr hne) keys
  refine ⟨_, List.getElem_mem hi, ?_⟩
  rw [h.selected, getSelected_mk, List.getElem?_eq_getElem hi]

theorem Sound.mem_of_getSelected {drp : DataRatePattern} (h : Sound label drps keys s)
    (hsel : s.drpList.getSelected = some drp) : drp ∈ drps := by
  obtain ⟨d, hmem, hd⟩ := h.getSelected hne
  exact Option.some.inj (hd.symm.trans hsel) ▸ hmem

theorem Sound.select (h : Sound label drps keys s) (k : FolderKey) :
    FolderUI.select s.drpList k = ⟨drps, selectedAfter drps.length (keys ++ [k])⟩ := by
  rw [h.selected, select_mk (selectedAfter_lt (List.length_pos_iff.mpr hne) keys)]
  rw [selectedAfter, selectedAfter, List.foldl_append]
  rfl

theorem Sound.getSelected_select (h : Sound label drps keys s) (k : FolderKey) :
    ∃ drp ∈ drps, (FolderUI.select s.drpList k).getSelected = some drp := by
  have hi := selectedAfter_lt (List.length_pos_iff.mpr hne) (keys ++ [k])
  refine ⟨_, List.getElem_mem hi, ?_⟩
  rw [h.select hne, getSelected_mk, List.getElem?_eq_getElem hi]

theorem Sound.folderLayout (h : Sound label drps keys s) :
    ∃ layout, Jens.folderLayout s.drpList = some layout := by
  rw [h.selected, folderLayout_mk (selectedAfter_lt (List.length_pos_iff.mpr hne) keys)]
  exact ⟨_, rfl⟩

include hdata

/-- **No step panics.** -/
theorem Sound.moves (h : Sound label drps keys s) (hs : s.step label a = some t) :
    Moves label s a t := by
  unfold FolderUI.step at hs
  rw [if_neg (by rw [h.panicked]; simp)] at hs
  cases a with
  | send =>
    simp only [send] at hs
    split at hs
    case h_1 l hpc =>
      obtain ⟨hevent, hreturned, rfl⟩ := map_receive_eq_some hs
      obtain ⟨drp, -, hsel⟩ := h.getSelected hne
      have hselected : (withSelected { s with list.event := some l }
          fun drp => { s with list.event := some l, pc := .firstDetails drp }) =
          { s with list.event := some l, pc := .firstDetails drp } := by
        simp only [withSelected, hsel]
      rw [hselected]
      exact .firstList hpc hevent hreturned hsel
    case h_2 drp hpc =>
      obtain ⟨hevent, hreturned, rfl⟩ := map_receive_eq_some hs
      exact .firstDetails hpc hevent hreturned
    case h_3 drp hpc =>
      obtain ⟨hevent, hreturned, rfl⟩ := map_receive_eq_some hs
      exact .details hpc hevent hreturned
    case h_4 l hpc =>
      obtain ⟨hevent, hreturned, rfl⟩ := map_receive_eq_some hs
      exact .list hpc hevent hreturned
    case h_5 => cases hs
  | key k =>
    obtain ⟨hpc, ht⟩ := Option.ite_none_right_eq_some.mp hs
    obtain rfl := Option.some.inj ht
    obtain ⟨drp, -, hsel⟩ := h.getSelected_select hne k
    simp only [navigator, withSelected, hsel]
    exact .key hpc hsel
  | layout =>
    obtain ⟨hpc, ht⟩ := Option.ite_none_right_eq_some.mp hs
    obtain rfl := Option.some.inj ht
    obtain ⟨layout, hlayout⟩ := h.folderLayout hne
    simp only [draw, hlayout]
    exact .layout hpc hlayout
  | printList =>
    obtain ⟨l, hl, rfl⟩ := Option.map_eq_some_iff.mp hs
    exact .printList hl
  | printDetails =>
    obtain ⟨drp, hdrp, rfl⟩ := Option.map_eq_some_iff.mp hs
    -- `SampleCount` reads the data through a pointer, and every pattern that has loaded has data
    obtain ⟨vs, hvs⟩ := hdata drp (h.event drp hdrp)
    have htext : ∃ text, drpDetailsText label drp = .ok text := by
      simp [drpDetailsText, DataRatePattern.sampleCount, hvs]
    obtain ⟨text, htext⟩ := htext
    simp only [printDetails, htext]
    exact .printDetails hdrp htext
  | listReturns =>
    obtain ⟨⟨hc, hevent⟩, ht⟩ := Option.ite_none_right_eq_some.mp hs
    obtain rfl := Option.some.inj ht
    exact .listReturns hc (Option.isNone_iff_eq_none.mp hevent)
  | detailsReturns =>
    obtain ⟨⟨hc, hevent⟩, ht⟩ := Option.ite_none_right_eq_some.mp hs
    obtain rfl := Option.some.inj ht
    exact .detailsReturns hc (Option.isNone_iff_eq_none.mp hevent)
  | returns =>
    obtain ⟨⟨hc, hpc⟩, ht⟩ := Option.ite_none_right_eq_some.mp hs
    obtain rfl := Option.some.inj ht
    exact .returns hc hpc

end Step

/-! ### The invariant -/

/-- `Run` has come to its first send. -/
theorem sound_init (hne : drps ≠ []) (h : init ⟨drps, 0⟩ = .ok s) : Sound label drps [] s := by
  have hn := List.length_pos_iff.mpr hne
  have hlayout : folderLayout ⟨drps, 0⟩ = some ⟨drps[0].name, 0⟩ := folderLayout_mk (i := 0) hn
  rw [init, if_neg (show ¬ (0 : ℤ) = -1 by decide), hlayout] at h
  obtain rfl := Except.ok.inj h
  exact {
    selected := rfl
    panicked := rfl
    carriedList := by
      rintro l (hl | hl)
      · exact (FolderPc.firstList.inj hl).symm
      · cases hl
    carriedDetails := by rintro drp (hd | hd) <;> cases hd
    event := fun drp hd => by cases hd
    list := fun hf => by cases hf
    details := fun hf => by cases hf
    layout := fun _ => hlayout
    listReturned := fun hf => by cases hf
    detailsReturned := fun hf => by cases hf
    returned := fun hf => by cases hf }

/-- An action that presses nothing leaves the keys. -/
theorem Sound.still (h : Sound label drps keys s) : Sound label drps (keys ++ []) s := by
  rwa [List.append_nil]

/-- What the action presses comes behind the keys. -/
theorem Sound.of_moves (hne : drps ≠ []) (h : Sound label drps keys s) (hm : Moves label s a t) :
    Sound label drps (keys ++ a.pressed.toList) t := by
  cases hm with
  | @firstList l drp hpc hevent hreturned hsel =>
    obtain rfl := h.carriedList l (.inl hpc)
    exact { h.still with
      returned := fun hf => by cases hf
      carriedList := by rintro l (hl | hl) <;> cases hl
      carriedDetails := by
        rintro d (hd | hd)
        · exact FolderPc.firstDetails.inj hd ▸ hsel
        · cases hd
      list := fun _ => .inl rfl
      details := fun hf => by cases hf
      layout := fun _ => h.layout (by rw [hpc]; rfl) }
  | @firstDetails drp hpc hevent hreturned =>
    have hsel := h.carriedDetails drp (.inl hpc)
    exact { h.still with
      returned := fun hf => by cases hf
      carriedList := by rintro l (hl | hl) <;> cases hl
      carriedDetails := by rintro d (hd | hd) <;> cases hd
      event := fun d hd => Option.some.inj hd ▸ h.mem_of_getSelected hne hsel
      list := fun _ => h.list (by rw [hpc]; rfl)
      details := fun _ => ⟨drp, hsel, .inl rfl⟩
      layout := fun _ => h.layout (by rw [hpc]; rfl) }
  | @details drp hpc hevent hreturned =>
    have hsel := h.carriedDetails drp (.inr hpc)
    exact { h.still with
      returned := fun hf => by cases hf
      carriedList := by
        rintro l (hl | hl)
        · cases hl
        · exact (FolderPc.list.inj hl).symm
      carriedDetails := by rintro d (hd | hd) <;> cases hd
      event := fun d hd => Option.some.inj hd ▸ h.mem_of_getSelected hne hsel
      list := fun hf => by cases hf
      details := fun _ => ⟨drp, hsel, .inl rfl⟩
      layout := fun hf => by cases hf }
  | @list l hpc hevent hreturned =>
    obtain rfl := h.carriedList l (.inr hpc)
    exact { h.still with
      returned := fun hf => by cases hf
      carriedList := by rintro l (hl | hl) <;> cases hl
      carriedDetails := by rintro d (hd | hd) <;> cases hd
      list := fun _ => .inl rfl
      details := fun _ => h.details (by rw [hpc]; rfl)
      layout := fun hf => by cases hf }
  | @key k drp hpc hsel =>
    -- the boxes still hold or show what was sent for the key before
    exact { h with
      selected := h.select hne k
      returned := fun hf => by cases hf
      carriedList := by rintro l (hl | hl) <;> cases hl
      carriedDetails := by
        rintro d (hd | hd)
        · cases hd
        · exact FolderPc.details.inj hd ▸ hsel
      list := fun hf => by cases hf
      details := fun hf => by cases hf
      layout := fun hf => by cases hf
      listReturned := fun hf => by simp [h.listReturned hf]
      detailsReturned := fun hf => by simp [h.detailsReturned hf] }
  | layout hpc hlayout =>
    exact { h.still with
      returned := fun hf => by cases hf
      carriedList := by rintro l (hl | hl) <;> cases hl
      carriedDetails := by rintro d (hd | hd) <;> cases hd
      list := fun _ => h.list (by rw [hpc]; rfl)
      details := fun _ => h.details (by rw [hpc]; rfl)
      layout := fun _ => hlayout }
  | @printList l hl =>
    exact { h.still with
      -- once the list is sent, what is printed is the list that was sent last
      list := fun hsent => by
        rcases h.list hsent with hevent | ⟨hevent, -⟩
        · exact .inr ⟨rfl, by rw [Option.some.inj (hl.symm.trans hevent)]⟩
        · cases hl.symm.trans hevent }
  | @printDetails drp text hdrp htext =>
    exact { h.still with
      event := fun d hd => by cases hd
      details := fun hsent => by
        obtain ⟨d, hsel, hevent | ⟨hevent, -⟩⟩ := h.details hsent
        · obtain rfl := Option.some.inj (hdrp.symm.trans hevent)
          exact ⟨drp, hsel, .inr ⟨rfl, htext⟩⟩
        · cases hdrp.symm.trans hevent }
  | listReturns hc _ =>
    exact { h.still with
      listReturned := fun _ => hc }
  | detailsReturns hc _ =>
    exact { h.still with
      detailsReturned := fun _ => hc }
  | returns hc _ =>
    exact { h.still with
      returned := fun _ => hc
      carriedList := by rintro l (hl | hl) <;> cases hl
      carriedDetails := by rintro d (hd | hd) <;> cases hd
      list := fun hf => by cases hf
      details := fun hf => by cases hf
      layout := fun hf => by cases hf }

/-! ### Whole runs -/

/-- The keys among the actions. -/
def keysOf (acts : List FolderAction) : List FolderKey := acts.filterMap FolderAction.pressed

section Run

variable {os : Os} {glob : String → Except String (List String)} {path : String}
  {s₀ : FolderUI} {acts : List FolderAction}

theorem sound_of_run (hstart : start os glob path = .ok s₀)
    (hrun : run (step label) s₀ acts = some s) :
    ∃ files, glob (path ++ "/*.csv") = .ok files ∧ loaded os files ≠ [] ∧
      Sound label (loaded os files) (keysOf acts) s := by
  rw [start, Except.bind_eq_ok] at hstart
  obtain ⟨l, hl, hinit⟩ := hstart
  obtain ⟨files, hfiles, rfl, hne⟩ := newDrpListFromFolder_eq_ok hl
  refine ⟨files, hfiles, hne, ?_⟩
  refine run_trace_invariant (I := fun acts s => Sound label (loaded os files) (keysOf acts) s)
    ?_ (sound_init hne hinit) hrun
  intro acts u a t h hs
  have hkeys : keysOf (acts ++ [a]) = keysOf acts ++ a.pressed.toList := by
    rw [keysOf, keysOf, List.filterMap_append]
    cases h : a.pressed <;> simp [h]
  rw [hkeys]
  exact h.of_moves hne (h.moves hne (fun _ hmem => data_of_mem_loaded hmem) hs)

/-- What is shown of the patterns `drps` after the keys. -/
structure Shown (label : F64 → String) (drps : List DataRatePattern) (keys : List FolderKey)
    (s : FolderUI) : Prop where
  panicked : s.panicked = none
  /-- The mark is on a pattern, the one that the keys have led to. -/
  selected : s.drpList = ⟨drps, selectedAfter drps.length keys⟩ ∧
    selectedAfter drps.length keys < drps.length
  /-- At rest the list, the details, the title and the chart are those of that pattern. -/
  atRest : s.AtRest → ∃ drp, drps[selectedAfter drps.length keys]? = some drp ∧
    s.list.text = drpListText s.drpList ∧ drpDetailsText label drp = .ok s.details.text ∧
    s.layout = ⟨drp.name, selectedAfter drps.length keys⟩

theorem Sound.shown (hne : drps ≠ []) (h : Sound label drps keys s) :
    Shown label drps keys s where
  panicked := h.panicked
  selected := ⟨h.selected, selectedAfter_lt (List.length_pos_iff.mpr hne) keys⟩
  atRest := by
    rintro ⟨hpc, hlist, hdetails⟩
    have hi := selectedAfter_lt (List.length_pos_iff.mpr hne) keys
    obtain ⟨drp, hsel, hd⟩ := h.details (by rw [hpc]; rfl)
    have hdrp : drps[selectedAfter drps.length keys]? = some drp := by
      rw [← getSelected_mk, ← h.selected]
      exact hsel
    refine ⟨drp, hdrp, ?_, ?_, ?_⟩
    · rcases h.list (by rw [hpc]; rfl) with hl | ⟨-, hl⟩
      · cases hlist.symm.trans hl
      · exact hl
    · rcases hd with hd | ⟨-, hd⟩
      · cases hdetails.symm.trans hd
      · exact hd
    · have hlayout := h.layout (by rw [hpc]; rfl)
      rw [h.selected, folderLayout_mk hi] at hlayout
      rw [← Option.some.inj hlayout]
      rw [← Option.some.inj ((List.getElem?_eq_getElem hi).symm.trans hdrp)]

/-- The widgets of the files that load. -/
theorem exists_start {files : List String} (hglob : glob (path ++ "/*.csv") = .ok files)
    (hheaders : ∀ file ∈ files, HeaderRead os file) (hne : loaded os files ≠ []) :
    ∃ s₀, start os glob path = .ok s₀ := by
  rw [start, newDrpListFromFolder_of_loaded hglob hheaders hne]
  have hn := List.length_pos_iff.mpr hne
  have hlayout : folderLayout ⟨loaded os files, 0⟩ = some ⟨(loaded os files)[0].name, 0⟩ :=
    folderLayout_mk (i := 0) hn
  show ∃ s₀, init ⟨loaded os files, 0⟩ = .ok s₀
  rw [init, if_neg (show ¬ (0 : ℤ) = -1 by decide), hlayout]
  exact ⟨_, rfl⟩

/-- **The folder mode shows the pattern that the keys have led to.**  Take a folder whose headers
can be read and of which a file loads.  In every run, however the boxes keep up with the keys,
nothing panics and the mark is on one of the patterns that load; at rest everything shown is of that
pattern. -/
theorem shown_of_run {files : List String} (hglob : glob (path ++ "/*.csv") = .ok files)
    (hheaders : ∀ file ∈ files, HeaderRead os file) (hne : loaded os files ≠ []) :
    ∃ s₀, start os glob path = .ok s₀ ∧ ∀ acts s, run (step label) s₀ acts = some s →
      Shown label (loaded os files) (keysOf acts) s := by
  obtain ⟨s₀, hstart⟩ := exists_start hglob hheaders hne
  refine ⟨s₀, hstart, fun acts s hrun => ?_⟩
  obtain ⟨files', hfiles', -, h⟩ := sound_of_run hstart hrun
  obtain rfl : files = files' := Except.ok.inj (hglob.symm.trans hfiles')
  exact h.shown hne

/-- A folder of three files, of which the second cannot be read. -/
def folderOs : Os :=
  { floatsOs with
    readFile := fun path => if path = "b.csv" then .error "permission denied" else .ok "100\n"
    csv := fun _ => .ok [["100"]] }

def folderGlob (_ : String) : Except String (List String) := .ok ["a.csv", "b.csv", "c.csv"]

/-- The first pattern is shown, then `ArrowDown` is pressed twice. -/
def folderActions : List FolderAction :=
  let handled : List FolderAction :=
    [.key .arrowDown, .send, .send, .printDetails, .layout, .printList]
  [.send, .printList, .send, .printDetails] ++ handled ++ handled

theorem exists_run_folderActions : ∃ s₀ s, start folderOs folderGlob "." = .ok s₀ ∧
    run (step fun _ => "") s₀ folderActions = some s ∧ s.cancelled = false := by
  have hrun : ((start folderOs folderGlob ".").toOption.bind fun s₀ =>
      run (step fun _ => "") s₀ folderActions).map (fun s => s.cancelled) = some false := by
    decide +kernel
  obtain ⟨s, hs, hc⟩ := Option.map_eq_some_iff.mp hrun
  obtain ⟨s₀, h₀, hs⟩ := Option.bind_eq_some_iff.mp hs
  exact ⟨s₀, s, Except.toOption_eq_some_iff.mp h₀, hs, hc⟩

theorem headerRead_folderOs (file : String) : HeaderRead folderOs file := by
  intro data hdata
  have htext : data = "100\n" := by
    simp only [folderOs] at hdata
    split_ifs at hdata
    exact (Except.ok.inj hdata).symm
  have hnone : headerLines (data.toList.splitOn '\n') = [] := by
    rw [htext]
    decide +kernel
  rw [hnone]
  intro pre line post heq
  cases pre <;> cases heq

theorem shown_of_run_down : ∃ s₀ s, start folderOs folderGlob "." = .ok s₀ ∧
    run (step fun _ => "") s₀ folderActions = some s ∧
    Shown (fun _ => "") (loaded folderOs ["a.csv", "b.csv", "c.csv"]) (keysOf folderActions) s := by
  have hne : loaded folderOs ["a.csv", "b.csv", "c.csv"] ≠ [] := by decide +kernel
  have hshown : ∃ s₀, start folderOs folderGlob "." = .ok s₀ ∧
      ∀ acts s, run (step fun _ => "") s₀ acts = some s →
        Shown (fun _ => "") (loaded folderOs ["a.csv", "b.csv", "c.csv"]) (keysOf acts) s :=
    shown_of_run rfl (fun file _ => headerRead_folderOs file) hne
  obtain ⟨s₀, s, hstart, hrun, -⟩ := exists_run_folderActions
  obtain ⟨s₁, hstart', h⟩ := hshown
  obtain rfl : s₀ = s₁ := Except.ok.inj (hstart.symm.trans hstart')
  exact ⟨s₀, s, hstart, hrun, h _ s hrun⟩

/-! ### The handling of a key ends -/

/-- The steps that neither a key nor the end of the context gives rise to. -/
def Internal : FolderAction → Prop
  | .send | .layout | .printList | .printDetails => True
  | _ => False

/-- What is left to do: the sends, each with what its box prints, and the layout. -/
def rank (s : FolderUI) : ℕ :=
  (match s.pc with
    | .firstList _ => 4
    | .firstDetails _ => 2
    | .details _ => 5
    | .list _ => 3
    | .layout => 1
    | .idle => 0
    | .returned => 0) + s.list.event.toList.length + s.details.event.toList.length

theorem Moves.rank_lt (h : Moves label s a t) (ha : Internal a) : t.rank < s.rank := by
  -- a send gives its box one print to do, and the place after it counts two less
  cases h with
  | firstList hpc hevent _ _ | list hpc hevent _ =>
    simp only [rank, hpc, hevent, Option.toList_none, Option.toList_some, List.length_nil,
      List.length_singleton]
    omega
  | firstDetails hpc hevent _ | details hpc hevent _ =>
    simp only [rank, hpc, hevent, Option.toList_none, Option.toList_some, List.length_nil,
      List.length_singleton]
    omega
  | layout hpc _ =>
    simp only [rank, hpc]
    omega
  | printList hl =>
    simp only [rank, hl, Option.toList_none, Option.toList_some, List.length_nil,
      List.length_singleton]
    omega
  | printDetails hd _ =>
    simp only [rank, hd, Option.toList_none, Option.toList_some, List.length_nil,
      List.length_singleton]
    omega
  | key _ _ | listReturns _ _ | detailsReturns _ _ | returns _ _ => exact absurd ha id

/-- As long as the context is not done, something can go on until all is at rest. -/
theorem Sound.onward (h : Sound label drps keys s) (hc : s.cancelled = false)
    (hrest : ¬ s.AtRest) :
    ∃ a, Internal a ∧ (s.step label a).isSome := by
  have hp : s.panicked.isSome = false := by rw [h.panicked]; rfl
  have hl : s.list.returned = false :=
    Bool.eq_false_iff.mpr fun hr => by simp [h.listReturned hr] at hc
  have hd : s.details.returned = false :=
    Bool.eq_false_iff.mpr fun hr => by simp [h.detailsReturned hr] at hc
  -- a box that has something to print prints it
  cases hlist : s.list.event with
  | some l => exact ⟨.printList, trivial, by simp [FolderUI.step, hp, hlist]⟩
  | none =>
    cases hdetails : s.details.event with
    | some drp => exact ⟨.printDetails, trivial, by simp [FolderUI.step, hp, hdetails]⟩
    | none =>
      cases hpc' : s.pc with
      | idle => exact absurd ⟨hpc', hlist, hdetails⟩ hrest
      | returned => exact absurd (h.returned hpc') (by simp [hc])
      | layout => exact ⟨.layout, trivial, by simp [FolderUI.step, hp, hpc']⟩
      | firstList l | list l =>
        exact ⟨.send, trivial, by simp [FolderUI.step, hp, send, hpc', receive, hlist, hl]⟩
      | firstDetails drp | details drp =>
        exact ⟨.send, trivial, by simp [FolderUI.step, hp, send, hpc', receive, hdetails, hd]⟩

theorem Moves.cancelled_eq (h : Moves label s a t) (ha : Internal a) :
    t.cancelled = s.cancelled := by
  cases h with
  | key _ _ => exact absurd ha id
  | _ => rfl

/-- What becomes of a state when no key comes. -/
structure Settles (label : F64 → String) (s : FolderUI) : Prop where
  /-- So many steps at most are left. -/
  bounded : ∀ as t, (∀ a ∈ as, Internal a) → run (step label) s as = some t →
    as.length ≤ s.rank
  /-- Wherever it has come to, something can go on unless all is at rest. -/
  onward : ∀ as t, (∀ a ∈ as, Internal a) → run (step label) s as = some t → ¬ t.AtRest →
    ∃ a, Internal a ∧ (t.step label a).isSome
  /-- It comes to rest. -/
  rest : ∃ as t, (∀ a ∈ as, Internal a) ∧ run (step label) s as = some t ∧ t.AtRest

theorem Sound.comesToRest (hne : drps ≠ []) (hdata : ∀ drp ∈ drps, ∃ vs, drp.data = some vs)
    (h : Sound label drps keys s) (hc : s.cancelled = false) : Settles label s := by
  -- without a key the context stays not done, so no box leaves a send without its receive
  let Live : FolderUI → Prop := fun s => (∃ keys, Sound label drps keys s) ∧ s.cancelled = false
  have hlower : ∀ s a t, Live s → Internal a → step label s a = some t →
      Live t ∧ t.rank < s.rank := by
    rintro s a t ⟨⟨keys, hsound⟩, hcs⟩ ha hs
    have hm := hsound.moves hne hdata hs
    exact ⟨⟨⟨_, hsound.of_moves hne hm⟩, (hm.cancelled_eq ha).trans hcs⟩, hm.rank_lt ha⟩
  have honward : ∀ s, Live s → ¬ s.AtRest → ∃ a, Internal a ∧ (s.step label a).isSome := by
    rintro s ⟨⟨keys, hsound⟩, hcs⟩ hrest
    exact hsound.onward hcs hrest
  have hlive : Live s := ⟨⟨keys, h⟩, hc⟩
  refine ⟨fun as t has hrun => ?_, fun as t has hrun => ?_, ?_⟩
  · have hle := length_add_rank_le rank hlower hlive has hrun
    omega
  · apply honward
    exact invariant_of_internal (fun s a t hl ha hs => (hlower s a t hl ha hs).1) hlive has hrun
  · exact exists_run_to_rest rank hlower honward hlive

/-- **The handling of a key never blocks.**  From every state of a run whose context is not done,
without a further key, at most `rank` steps are left, something can go on until all is at rest, and
it comes to rest. -/
theorem settles_of_run (hstart : start os glob path = .ok s₀)
    (hrun : run (step label) s₀ acts = some s) (hc : s.cancelled = false) : Settles label s := by
  obtain ⟨files, -, hne, h⟩ := sound_of_run hstart hrun
  exact h.comesToRest hne (fun _ hmem => data_of_mem_loaded hmem) hc

theorem settles_of_run_down : ∃ s₀ s, start folderOs folderGlob "." = .ok s₀ ∧
    run (step fun _ => "") s₀ folderActions = some s ∧ s.cancelled = false ∧
    Settles (fun _ => "") s := by
  obtain ⟨s₀, s, hstart, hrun, hc⟩ := exists_run_folderActions
  exact ⟨s₀, s, hstart, hrun, hc, settles_of_run hstart hrun hc⟩

end Run

end FolderUI

end Jens
