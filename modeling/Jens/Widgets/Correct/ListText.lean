import Jens.Lib.Outcome
import Jens.Lib.Table
import Jens.Widgets.ListText

/-!
# The table has every flow once

Filling the table flow by flow makes the table of the list (`foldlM_setCell`), whose columns are as
many as are needed (`le_colC_mul`, `colC_pred_mul_lt`).  Its lines read one after another are the
flows of the list in another order, so each is written once (`flowTable_showsOnce`).
-/

namespace Jens

section DataTable

variable {α ω : Type} {r : ℕ} {flows : List α}

/-! ### Filling -/

theorem indexAt_of_getElem? {β : Type} {xs : List β} {i : ℕ} {x : β} (h : xs[i]? = some x) :
    indexAt xs i = .ok x := by
  simp [indexAt, h]

/-- The columns that are made. -/
def colCount (r n : ℕ) : ℕ := if n % r ≠ 0 then n / r + 1 else n / r

theorem le_colCount_mul (hr : 0 < r) (n : ℕ) : n ≤ colCount r n * r := by
  have hdiv := Nat.div_add_mod n r
  have hmod := Nat.mod_lt n hr
  rw [colCount, Nat.mul_comm]
  split_ifs with h
  · rw [Nat.mul_succ]
    omega
  · omega

/-- A column that is made is begun. -/
theorem mul_lt_of_lt_colCount {n i : ℕ} (h : i < colCount r n) : i * r < n := by
  have hdiv := Nat.div_add_mod n r
  rw [Nat.mul_comm] at hdiv
  unfold colCount at h
  split_ifs at h with hmod
  · have hle : i * r ≤ n / r * r := Nat.mul_le_mul_right _ (Nat.le_of_lt_succ h)
    omega
  · have hr : 0 < r := by
      rcases Nat.eq_zero_or_pos r with rfl | hr
      · simp at h
      · exact hr
    have hlt : i * r < n / r * r := Nat.mul_lt_mul_of_pos_right h hr
    omega

/-- A flow goes to the next cell. -/
theorem setCell_columns {c : ℕ} (flows : List α) (flow : α) (hr : 0 < r)
    (hroom : flows.length < c * r) :
    DataTable.setCell (Table.columns r c flows) (flows.length / r) (flows.length % r) flow =
      .ok (Table.columns r c (flows ++ [flow])) := by
  have hcol : flows.length / r < c := Nat.div_lt_of_lt_mul (by rwa [Nat.mul_comm])
  have hline : flows.length % r < r := Nat.mod_lt _ hr
  have hcolumn := indexAt_of_getElem? (Table.getElem?_columns (r := r) (l := flows) hcol)
  have hcell := indexAt_of_getElem? (Table.getElem?_column (l := flows) hline (flows.length / r))
  rw [DataTable.setCell, hcolumn]
  simp only [bind, Except.bind, hcell, Table.columns_concat]
  rfl

/-- The loop that fills the table. -/
theorem foldlM_setCell {c : ℕ} (flows rest : List α) (hr : 0 < r)
    (hroom : (flows ++ rest).length ≤ c * r) :
    (rest.zipIdx flows.length).foldlM
        (fun t flow => DataTable.setCell t (flow.2 / r) (flow.2 % r) flow.1)
        (Table.columns r c flows) = .ok (Table.columns r c (flows ++ rest)) := by
  induction rest generalizing flows with
  | nil => simp [pure, Except.pure]
  | cons flow rest ih =>
    have hnext := ih (flows ++ [flow]) (by simpa using hroom)
    rw [List.length_append, List.length_singleton, List.append_assoc] at hnext
    rw [List.zipIdx_cons, List.foldlM_cons]
    have hlt : flows.length < c * r := by
      simp only [List.length_append, List.length_cons] at hroom
      omega
    have hstep := setCell_columns flows flow hr hlt
    simp only [hstep, bind, Except.bind]
    exact hnext

theorem convertFlowsTo2dArray_eq_ok (hr : 0 < r) (hne : flows ≠ []) :
    convertFlowsTo2dArray flows r = .ok (colCount r flows.length, r,
      some (Table.columns r (colCount r flows.length) flows)) := by
  have hfill := foldlM_setCell [] flows hr
    (by simpa using le_colCount_mul hr flows.length)
  rw [Table.columns_nil, List.length_nil, List.nil_append] at hfill
  have hlen : flows.length ≠ 0 := fun h => hne (List.eq_nil_of_length_eq_zero h)
  rw [convertFlowsTo2dArray, if_neg hlen, if_neg hr.ne']
  simp only [colCount] at hfill ⊢
  simp only [hfill, bind, Except.bind]
  rfl

/-! ### Reading -/

/-- What `writeLine` does with a line of the table. -/
theorem visitLine_columns {c line : ℕ} {visit : α → Except Failure (List ω)} {w : α → List ω}
    (hvisit : ∀ flow ∈ flows, visit flow = .ok (w flow)) (hline : line < r) :
    DataTable.visitLine visit (Table.columns r c flows) line =
      .ok ((Table.line r c flows line).flatMap w) := by
  have hcell : ∀ column ∈ Table.columns r c flows,
      visitCell visit line column = .ok ((column[line]?.getD none).toList.flatMap w) := by
    intro column hmem
    obtain ⟨i, -, rfl⟩ := List.mem_map.mp hmem
    have hget := Table.getElem?_column (l := flows) hline i
    rw [visitCell, indexAt_of_getElem? hget, hget, Except.bind_eq_ok]
    refine ⟨_, rfl, ?_⟩
    cases hflow : flows[i * r + line]? with
    | none => rfl
    | some flow => simp [hvisit flow (List.mem_of_getElem? hflow)]
  have hcells : (Table.columns r c flows).map (fun column =>
      (column[line]?.getD none).toList.flatMap w) =
        (List.range c).map fun i => flows[i * r + line]?.toList.flatMap w := by
    rw [Table.columns, List.map_map]
    refine List.map_congr_left fun i _ => ?_
    rw [Function.comp_apply, Table.getElem?_column hline, Option.getD_some]
  rw [DataTable.visitLine, Except.mapM_eq_ok hcell, hcells, Except.map_eq_ok]
  refine ⟨_, rfl, ?_⟩
  rw [Table.line, List.filterMap_eq_flatMap_toList, List.flatMap_assoc, List.flatMap_def]

/-- The flows that are met line by line. -/
def DataTable.visits (t : DataTable α) (rowC : ℕ) : Except Failure (List α) :=
  ((List.range rowC).mapM (t.visitLine fun flow => .ok [flow])).map List.flatten

theorem visits_columns (r c : ℕ) (flows : List α) :
    DataTable.visits (Table.columns r c flows) r =
      .ok ((List.range r).flatMap (Table.line r c flows)) := by
  have hlines : ∀ line ∈ List.range r, DataTable.visitLine (fun flow => .ok [flow])
      (Table.columns r c flows) line = .ok (Table.line r c flows line) := by
    intro line hmem
    rw [visitLine_columns (w := fun flow => [flow]) (fun _ _ => rfl) (List.mem_range.mp hmem)]
    simp
  rw [DataTable.visits, Except.mapM_eq_ok hlines]
  rfl

/-- **Every flow once**: flow `i` stands in column `i / r` and line `i % r`, the other cells are
nil, every column is begun, and the flows that are met line by line are the flows of the list. -/
structure ShowsOnce (flows : List α) (r colC : ℕ) (t : DataTable α) : Prop where
  columns : t.length = colC
  lines : ∀ column ∈ t, column.length = r
  cell : ∀ i flow, flows[i]? = some flow → t[i / r]?.bind (·[i % r]?) = some (some flow)
  nothingElse : ∀ col line flow, t[col]?.bind (·[line]?) = some (some flow) →
    ∃ i, flows[i]? = some flow ∧ col = i / r ∧ line = i % r
  noEmptyColumn : ∀ column ∈ t, ∃ flow, some flow ∈ column
  visits : ∃ visited, t.visits r = .ok visited ∧ visited.Perm flows

theorem showsOnce_columns (hr : 0 < r) (flows : List α) :
    ShowsOnce flows r (colCount r flows.length)
      (Table.columns r (colCount r flows.length) flows) := by
  have hroom := le_colCount_mul hr flows.length
  refine ⟨Table.length_columns, ?_, ?_, ?_, ?_, _, visits_columns r _ flows,
    Table.flatMap_line_perm hroom⟩
  · intro column hmem
    obtain ⟨i, -, rfl⟩ := List.mem_map.mp hmem
    exact Table.length_column i
  · intro i flow hflow
    have hi : i < flows.length := (List.getElem?_eq_some_iff.mp hflow).1
    have hcol : i / r < colCount r flows.length :=
      Nat.div_lt_of_lt_mul (by rw [Nat.mul_comm]; omega)
    have hcell := (Table.cell_eq_iff (n := i) (Nat.mod_lt i hr)).mpr ⟨rfl, rfl⟩
    rw [Table.getElem?_columns hcol, Option.bind_some, Table.getElem?_column (Nat.mod_lt i hr),
      hcell, hflow]
  · intro col line flow hflow
    obtain ⟨column, hcolumn, hcell⟩ := Option.bind_eq_some_iff.mp hflow
    have hcol : col < colCount r flows.length := by
      simpa using (List.getElem?_eq_some_iff.mp hcolumn).1
    rw [Table.getElem?_columns hcol] at hcolumn
    obtain rfl := Option.some.inj hcolumn
    have hline : line < r := by simpa using (List.getElem?_eq_some_iff.mp hcell).1
    rw [Table.getElem?_column hline] at hcell
    exact ⟨_, Option.some.inj hcell, (Table.cell_eq_iff hline).mp rfl⟩
  · intro column hmem
    obtain ⟨i, hi, rfl⟩ := List.mem_map.mp hmem
    have hlt := mul_lt_of_lt_colCount (List.mem_range.mp hi)
    refine ⟨flows[i * r], List.mem_map.mpr ⟨0, List.mem_range.mpr hr, ?_⟩⟩
    exact List.getElem?_eq_getElem hlt

/-- **The table of the eligible flows shows every one of them once**, and without a flow there is no
table. -/
theorem convertFlowsTo2dArray_showsOnce (flows : List α) (hr : 0 < r) :
    (flows = [] → convertFlowsTo2dArray flows r = .ok (0, 0, none)) ∧
    (flows ≠ [] → ∃ colC t, convertFlowsTo2dArray flows r = .ok (colC, r, some t) ∧
      ShowsOnce flows r colC t) := by
  constructor
  · rintro rfl
    rfl
  · intro hne
    exact ⟨_, _, convertFlowsTo2dArray_eq_ok hr hne, showsOnce_columns hr flows⟩

/-- Seven flows in columns of three. -/
theorem convertFlowsTo2dArray_seven : ∃ colC t,
    convertFlowsTo2dArray [1, 2, 3, 4, 5, 6, 7] 3 = .ok (colC, 3, some t) ∧
      ShowsOnce [1, 2, 3, 4, 5, 6, 7] 3 colC t :=
  (convertFlowsTo2dArray_showsOnce [1, 2, 3, 4, 5, 6, 7] (by decide)).2 (by decide)

end DataTable

/-! ### Printing -/

/-- The writes of a flow, as long as it is. -/
def flowWrites (label : ℕ → String) (selectedFlow : Option FlowT) (length : FlowT → ℕ)
    (flow : FlowT) : List TextWrite :=
  let isSelectedFlow := selectedFlow.any flow.equals
  [writeHighlightedIf isSelectedFlow (sprintf04d flow.flowId),
    writeHiglightedColoredIf isSelectedFlow "(" flow.color,
    writeHighlightedIf isSelectedFlow (sprintf5s (label (length flow))),
    writeHiglightedColoredIf isSelectedFlow ")" flow.color,
    { text := "▍", color := some flow.color }]

theorem writeFlow_eq_ok (label : ℕ → String) {flows : List FlowT} (selectedFlow : Option FlowT)
    {length : FlowT → ℕ} (hlen : ∀ flow ∈ flows, flow.d.readLength = .ok (length flow)) :
    ∀ flow ∈ flows, writeFlow label selectedFlow flow =
      .ok (flowWrites label selectedFlow length flow) := by
  intro flow hflow
  rw [writeFlow, hlen flow hflow]
  rfl

/-- What is printed of the table: the lines, and the arrows below the columns. -/
theorem print2dArrayOfFlows_eq_ok {label : ℕ → String} {flows : List FlowT} {r : ℕ}
    {m : FlowManager} {selectedFlow : Option FlowT × Option String} {length : FlowT → ℕ}
    (hr : 0 < r) (hne : flows ≠ []) (hsel : m.getSelectedFlow = .ok selectedFlow)
    (hlen : ∀ flow ∈ flows, flow.d.readLength = .ok (length flow)) :
    print2dArrayOfFlows label (Table.columns r (colCount r flows.length) flows) r
        (colCount r flows.length) m =
      .ok (((List.range r).flatMap fun line =>
        (Table.line r (colCount r flows.length) flows line).flatMap
          (flowWrites label selectedFlow.1 length) ++ [{ text := "\n" }]) ++
        [{ text := String.join <|
          List.replicate (colCount r flows.length - 1) "       ⤻    " }]) := by
  have hlines : ∀ line ∈ List.range r, writeLine label selectedFlow.1
      (Table.columns r (colCount r flows.length) flows) line = .ok
        ((Table.line r (colCount r flows.length) flows line).flatMap
          (flowWrites label selectedFlow.1 length) ++ [{ text := "\n" }]) := by
    intro line hmem
    have hline := visitLine_columns (c := colCount r flows.length)
      (writeFlow_eq_ok label selectedFlow.1 hlen) (List.mem_range.mp hmem)
    rw [writeLine, hline]
    rfl
  have hcount : 0 < colCount r flows.length := by
    have hlen : 0 < flows.length := List.length_pos_of_ne_nil hne
    have hroom := le_colCount_mul hr flows.length
    exact Nat.pos_of_mul_pos_right (Nat.lt_of_lt_of_le hlen hroom)
  have hrepeat : stringsRepeat "       ⤻    " ((colCount r flows.length : ℤ) - 1) =
      .ok (String.join (List.replicate (colCount r flows.length - 1) "       ⤻    ")) := by
    rw [stringsRepeat, if_neg (by omega)]
    congr
    omega
  have hprint := Except.mapM_eq_ok hlines
  rw [print2dArrayOfFlows, hsel]
  simp only [bind, Except.bind, hprint, hrepeat]
  rw [← List.flatMap_def]
  rfl

end Jens
