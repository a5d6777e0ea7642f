import Jens.Jsonp.BenchmarkDefinition
import Jens.Lib.JsonRoundTrip

/-!
# A benchmark definition written as JSON is read back

The exported fields of every type of a benchmark file come back as they were written, as long as
their numbers are in the range of their Go types.  The fields of a pattern that are not exported
come back empty (`exported`).
-/

namespace Jens

open Json

/-! ### Settings -/

namespace DrPlayTrafficControlConfig

theorem nodup_fields : (fields.map fun f => foldKey f.name).Nodup := by decide +kernel

theorem readsBack (x : DrPlayTrafficControlConfig) : ReadsBack decode marshal {} x x := by
  intro j hj
  unfold marshal at hj
  dsimp only at hj
  obtain ⟨m₁, h₁, hj⟩ := Except.bind_eq_ok.mp hj
  obtain ⟨m₂, h₂, hj⟩ := Except.bind_eq_ok.mp hj
  obtain ⟨m₃, h₃, hj⟩ := Except.bind_eq_ok.mp hj
  obtain ⟨m₄, h₄, hj⟩ := Except.bind_eq_ok.mp hj
  obtain ⟨m₅, h₅, hj⟩ := Except.bind_eq_ok.mp hj
  obtain ⟨m₆, h₆, hj⟩ := Except.bind_eq_ok.mp hj
  obtain rfl := Except.ok.inj hj
  refine ⟨by simp, ?_⟩
  rw [← List.append_nil (m₁ ++ m₂ ++ m₃ ++ m₄ ++ m₅ ++ m₆)]
  simp only [List.append_assoc]
  have hint32 (y : Option Int32) : ∀ v ∈ y, ReadsBack .ofInt32 _ 0 v v :=
    fun v _ => readsBack_ofInt32 0 v
  have hbool (y : Option Bool) : ∀ v ∈ y, ReadsBack .ofBool _ false v v :=
    fun v _ => readsBack_ofBool false v
  -- the fields one after the other
  apply (ofObj_omitempty 0 nodup_fields rfl rfl rfl (hint32 _) h₁).trans
  apply (ofObj_omitempty 1 nodup_fields rfl rfl rfl (hint32 _) h₂).trans
  apply (ofObj_omitempty 2 nodup_fields rfl rfl rfl (hint32 _) h₃).trans
  apply (ofObj_omitempty 3 nodup_fields rfl rfl rfl (hbool _) h₄).trans
  apply (ofObj_omitempty 4 nodup_fields rfl rfl rfl (hbool _) h₅).trans
  refine Eq.trans (ofObj_omitempty 5 nodup_fields rfl rfl rfl
    (fun v _ => readsBack_ofUInt64 0 v) h₆) ?_
  rfl

end DrPlayTrafficControlConfig

namespace DrPlayDataRateConfig

theorem nodup_fields (os : Os) : ((fields os).map fun f => foldKey f.name).Nodup := by
  show (["WarmupBeforeDrpMs", "Frequency", "Scale", "MinRateKbits"].map foldKey).Nodup
  decide +kernel

/-- The numbers are in the range of their types. -/
structure InRange (os : Os) (x : DrPlayDataRateConfig) : Prop where
  warmupBeforeDrpMs : ∀ v ∈ x.warmupBeforeDrpMs, IsFloat os.round v
  frequency : ∀ v ∈ x.frequency, IsGoInt v
  scale : ∀ v ∈ x.scale, IsFloat os.round v
  minRateKbits : ∀ v ∈ x.minRateKbits, IsFloat os.round v

theorem readsBack {os : Os} {x : DrPlayDataRateConfig} (hx : x.InRange os) :
    ReadsBack (decode os) marshal {} x x := by
  intro j hj
  unfold marshal at hj
  obtain ⟨m₁, h₁, hj⟩ := Except.bind_eq_ok.mp hj
  obtain ⟨m₂, h₂, hj⟩ := Except.bind_eq_ok.mp hj
  obtain ⟨m₃, h₃, hj⟩ := Except.bind_eq_ok.mp hj
  obtain ⟨m₄, h₄, hj⟩ := Except.bind_eq_ok.mp hj
  obtain rfl := Except.ok.inj hj
  refine ⟨by simp, ?_⟩
  rw [← List.append_nil (m₁ ++ m₂ ++ m₃ ++ m₄)]
  simp only [List.append_assoc]
  refine Eq.trans (ofObj_omitempty 0 (nodup_fields os) rfl rfl rfl
    (fun v hv => readsBack_ofFloat (hx.warmupBeforeDrpMs v hv) _) h₁) ?_
  refine Eq.trans (ofObj_omitempty 1 (nodup_fields os) rfl rfl rfl
    (fun v hv => readsBack_ofGoInt (hx.frequency v hv) _) h₂) ?_
  refine Eq.trans (ofObj_omitempty 2 (nodup_fields os) rfl rfl rfl
    (fun v hv => readsBack_ofFloat (hx.scale v hv) _) h₃) ?_
  refine Eq.trans (ofObj_omitempty 3 (nodup_fields os) rfl rfl rfl
    (fun v hv => readsBack_ofFloat (hx.minRateKbits v hv) _) h₄) ?_
  rfl

end DrPlayDataRateConfig

namespace DrplaySetting

theorem nodup_fields (os : Os) : ((fields os).map fun f => foldKey f.name).Nodup := by
  show (["TC", "DRP"].map foldKey).Nodup
  decide +kernel

/-- The numbers are in the range of their types. -/
def InRange (os : Os) (x : DrplaySetting) : Prop := ∀ v ∈ x.drp, v.InRange os

theorem readsBack {os : Os} {x : DrplaySetting} (hx : x.InRange os) :
    ReadsBack (decode os) marshal {} x x := by
  intro j hj
  unfold marshal at hj
  obtain ⟨m₁, h₁, hj⟩ := Except.bind_eq_ok.mp hj
  obtain ⟨m₂, h₂, hj⟩ := Except.bind_eq_ok.mp hj
  obtain rfl := Except.ok.inj hj
  refine ⟨by simp, ?_⟩
  rw [← List.append_nil (m₁ ++ m₂)]
  simp only [List.append_assoc]
  refine Eq.trans (ofObj_omitempty 0 (nodup_fields os) rfl rfl rfl
    (fun v _ => v.readsBack) h₁) ?_
  refine Eq.trans (ofObj_omitempty 1 (nodup_fields os) rfl rfl rfl
    (fun v hv => DrPlayDataRateConfig.readsBack (hx v hv)) h₂) ?_
  rfl

end DrplaySetting

/-! ### Definitions -/

namespace BenchmarkPattern

theorem nodup_fields (os : Os) : ((fields os).map fun f => foldKey f.name).Nodup := by
  show (["Path", "Hash", "Setting"].map foldKey).Nodup
  decide +kernel

/-- The pattern with its exported fields only. -/
def exported (x : BenchmarkPattern) : BenchmarkPattern :=
  { path := x.path, hashStr := x.hashStr, setting := x.setting }

theorem readsBack {os : Os} {x : BenchmarkPattern} (hx : x.setting.InRange os) :
    ReadsBack (decode os) marshal {} x x.exported := by
  intro j hj
  unfold marshal at hj
  obtain ⟨jSetting, hsetting, hj⟩ := Except.bind_eq_ok.mp hj
  obtain rfl := Except.ok.inj hj
  refine ⟨by simp, ?_⟩
  apply (ofObj_field 0 (nodup_fields os) rfl (y := x.path) rfl).trans
  apply (ofObj_field 1 (nodup_fields os) rfl (y := x.hashStr) rfl).trans
  refine Eq.trans (ofObj_field 2 (nodup_fields os) rfl
    (DrplaySetting.readsBack hx jSetting hsetting).2) ?_
  rfl

end BenchmarkPattern

namespace BenchmarkDefinition

theorem nodup_fields (os : Os) : ((fields os).map fun f => foldKey f.name).Nodup := by
  show (["Name", "Max_application_bitrate", "MaxBitrateEstimationTimeS", "Patterns",
    "DrplaySetting"].map foldKey).Nodup
  decide +kernel

/-- The numbers are in the range of their types. -/
structure InRange (os : Os) (x : BenchmarkDefinition) : Prop where
  maxApplicationBitrate : IsGoInt x.maxApplicationBitrate
  maxBitrateEstimationTimeS : IsGoInt x.maxBitrateEstimationTimeS
  patterns : ∀ bp ∈ x.patterns, bp.setting.InRange os
  drplaySetting : x.drplaySetting.InRange os

/-- The definition with its exported fields only. -/
def exported (x : BenchmarkDefinition) : BenchmarkDefinition :=
  { x with patterns := x.patterns.map BenchmarkPattern.exported, spare := [] }

theorem readsBack_patterns {os : Os} {x : BenchmarkDefinition} (hx : x.InRange os)
    {js : List Json} (h : x.patterns.mapM BenchmarkPattern.marshal = .ok js) :
    Decoder.ofSlice "jsonp.BenchmarkPattern" {} (BenchmarkPattern.decode os) {}
      (if js = [] then .null else .arr js) =
        .ok ⟨x.patterns.map BenchmarkPattern.exported, []⟩ := by
  have hread := mapM_readsBack (fun bp hbp => BenchmarkPattern.readsBack (hx.patterns bp hbp)) h
  by_cases hjs : js = []
  · subst hjs
    rw [if_pos rfl, ← Except.ok.inj hread]
    rfl
  · rw [if_neg hjs]
    exact Decoder.ofSlice_new hjs hread

theorem readsBack {os : Os} {x : BenchmarkDefinition} (hx : x.InRange os) :
    ReadsBack (decode os) marshal {} x x.exported := by
  intro j hj
  unfold marshal at hj
  obtain ⟨js, hjs, hj⟩ := Except.bind_eq_ok.mp hj
  obtain ⟨jSetting, hsetting, hj⟩ := Except.bind_eq_ok.mp hj
  obtain rfl := Except.ok.inj hj
  refine ⟨by simp, ?_⟩
  apply (ofObj_field 0 (nodup_fields os) rfl (y := x.name) rfl).trans
  refine Eq.trans (ofObj_field 1 (nodup_fields os) rfl
    (readsBack_ofGoInt hx.maxApplicationBitrate 0 _ rfl).2) ?_
  refine Eq.trans (ofObj_field 2 (nodup_fields os) rfl
    (readsBack_ofGoInt hx.maxBitrateEstimationTimeS 0 _ rfl).2) ?_
  apply (ofObj_field 3 (nodup_fields os) rfl (readsBack_patterns hx hjs)).trans
  refine Eq.trans (ofObj_field 4 (nodup_fields os) rfl
    (DrplaySetting.readsBack hx.drplaySetting jSetting hsetting).2) ?_
  rfl

/-- What is not exported is not written. -/
theorem marshal_exported (x : BenchmarkDefinition) : x.exported.marshal = x.marshal := by
  unfold marshal exported
  have hpatterns : (x.patterns.map BenchmarkPattern.exported).mapM BenchmarkPattern.marshal =
      x.patterns.mapM BenchmarkPattern.marshal := by
    rw [List.mapM_map]
    rfl
  rw [hpatterns]

end BenchmarkDefinition

theorem BenchmarkDefinitionWrapper.nodup_fields (os : Os) :
    ((fields os).map fun f => foldKey f.name).Nodup := by
  show (["Hash", "Inner"].map foldKey).Nodup
  decide +kernel

/-- **A wrapper is read back**, without its stored digest. -/
theorem BenchmarkDefinitionWrapper.readsBack {os : Os}
    {x : BenchmarkDefinitionWrapper} (hx : x.inner.InRange os) :
    ReadsBack (decode os) marshal {} x { hashStr := x.hashStr, inner := x.inner.exported } := by
  intro j hj
  unfold marshal at hj
  obtain ⟨jInner, hinner, hj⟩ := Except.bind_eq_ok.mp hj
  obtain rfl := Except.ok.inj hj
  refine ⟨by simp, ?_⟩
  apply (ofObj_field 0 (nodup_fields os) rfl (y := x.hashStr) rfl).trans
  refine Eq.trans (ofObj_field 1 (nodup_fields os) rfl
    (BenchmarkDefinition.readsBack hx jInner hinner).2) ?_
  rfl

end Jens
