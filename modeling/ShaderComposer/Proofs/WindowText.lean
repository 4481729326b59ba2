import ShaderComposer.Proofs.IntegerLiterals
import ShaderComposer.Proofs.TapCover
import ShaderComposer.Proofs.TapText

/-!
# The text of a blur samples its whole window

The body of a pass is made of its taps from one end of the window to the other, so the
lines of the `k`-th of them stand behind exactly `k` lines that add to the sum.  Its
distance from the center is at most the radius, for which the standard weights suffice,
and it is small enough to be a float and a literal without rounding.
-/

namespace ShaderComposer

namespace ReferenceBlur

/-- The lines of a body as a text. -/
def body (dialect : Dialect) (threshold : Option Float32) (window : List Tap) : String :=
  Text.joinWith "\n" (bodyLines dialect threshold window)

theorem lines_body (dialect : Dialect) (threshold : Option Float32) (window : List Tap) :
    Text.lines (body dialect threshold window).toList =
      (bodyLines dialect threshold window).map String.toList := by
  apply Text.lines_joinWith
  intro line hline
  have hbody := bodyLine_of_mem_bodyLines hline
  exact ⟨hbody.nonempty, hbody.unbroken⟩

/-! ## The window -/

/-- Behind some lines, of which `k` add to the sum, stand these. -/
def TapAt (text : String) (k : Nat) (lines : List String) : Prop :=
  ∃ before after,
    Text.lines text.toList = before ++ lines.map String.toList ++ after ∧
      before.countP addsToSum = k

/-- The lines of a text that add to the sum. -/
def sumLines (text : String) : List (List Char) :=
  (Text.lines text.toList).filter addsToSum

/-- The offset of a tap as an exact decimal. -/
def offsetText (params : BlurParams) (k : Nat) : String :=
  toString ((k : Int) - params.radius) ++ ".0"

/-- A text adds one sample for every tap of the window, each with the weight that belongs
to its distance from the center, and so with that of the tap on the other side. -/
structure SamplesWindow
    (dialect : Dialect) (params : BlurParams) (threshold : Option Float32) (text : String) :
    Prop where
  length_sumLines : (sumLines text).length = 2 * params.radius + 1
  samples :
    ∀ k ≤ 2 * params.radius, ∃ weight,
      (GaussianWeights.ofParams params).standard[((k : Int) - params.radius).natAbs]? =
        some weight ∧
      TapAt text k
        (tapText dialect (offsetText params k) (Decimal.literal weight)
          (threshold.map Decimal.literal)) ∧
      TapAt text (2 * params.radius - k)
        (tapText dialect (offsetText params (2 * params.radius - k)) (Decimal.literal weight)
          (threshold.map Decimal.literal))
  compares_iff :
    ∀ line ∈ Text.lines text.toList,
      stepWord.toList <:+: line ↔ threshold.isSome = true ∧ addsToSum line = true

theorem countP_flatMap_accumulate
    (dialect : Dialect) (threshold : Option Float32) (window : List Tap) :
    (window.flatMap (accumulate dialect threshold)).countP (fun line => addsToSum line.toList) =
      window.length := by
  induction window with
  | nil =>
      rfl
  | cons tap window ih =>
      rw [List.flatMap_cons, List.countP_append, countP_accumulate, ih, List.length_cons,
        Nat.add_comm]

theorem countP_frame
    (dialect : Dialect) (threshold : Option Float32) {lines : List String}
    (hlines : lines ⊆ prologue dialect threshold ++ ["return sum;"]) :
    lines.countP (fun line => addsToSum line.toList) = 0 := by
  rw [List.countP_eq_zero]
  intro line hline
  rw [(plain_of_mem_frame (hlines hline)).2.2]
  decide

theorem length_sumLines_body
    (dialect : Dialect) (threshold : Option Float32) (window : List Tap) :
    (sumLines (body dialect threshold window)).length = window.length := by
  have hprologue :=
    countP_frame dialect threshold (List.subset_append_left _ ["return sum;"])
  have hreturn :=
    countP_frame dialect threshold (List.subset_append_right (prologue dialect threshold) _)
  rw [sumLines, lines_body, ← List.countP_eq_length_filter, List.countP_map]
  change (bodyLines dialect threshold window).countP (fun line => addsToSum line.toList) = _
  rw [bodyLines, List.countP_append, List.countP_append, hprologue, hreturn,
    countP_flatMap_accumulate]
  omega

theorem tapAt_body
    (dialect : Dialect) (threshold : Option Float32) {window : List Tap} {k : Nat} {tap : Tap}
    (htap : window[k]? = some tap) :
    TapAt (body dialect threshold window) k (accumulate dialect threshold tap) := by
  obtain ⟨hk, rfl⟩ := List.getElem?_eq_some_iff.mp htap
  have hprologue :=
    countP_frame dialect threshold (List.subset_append_left _ ["return sum;"])
  have hwindow :
      window.flatMap (accumulate dialect threshold) =
        (window.take k).flatMap (accumulate dialect threshold) ++
          accumulate dialect threshold window[k] ++
            (window.drop (k + 1)).flatMap (accumulate dialect threshold) := by
    rw [List.append_assoc, ← List.flatMap_cons, ← List.flatMap_append, List.getElem_cons_drop,
      List.take_append_drop]
  refine
    ⟨(prologue dialect threshold ++
        (window.take k).flatMap (accumulate dialect threshold)).map String.toList,
      ((window.drop (k + 1)).flatMap (accumulate dialect threshold) ++
        ["return sum;"]).map String.toList, ?_, ?_⟩
  · rw [lines_body, bodyLines, hwindow]
    simp only [List.map_append, List.append_assoc]
  · rw [List.countP_map]
    change
      List.countP (fun line => addsToSum line.toList)
        (prologue dialect threshold ++
          (window.take k).flatMap (accumulate dialect threshold)) = k
    rw [List.countP_append, hprologue, countP_flatMap_accumulate, List.length_take]
    omega

theorem literal_offset {distance : Int} (hdistance : distance.natAbs < 16777216) :
    Decimal.literal
        (if distance < 0 then -Binary.singleOfNat distance.natAbs
          else Binary.singleOfNat distance.natAbs) =
      toString distance ++ ".0" := by
  split
  · next hnegative =>
    obtain ⟨exact, hexact, hinteger⟩ :=
      Binary.ofFloat32_neg_singleOfNat (by omega) hdistance
    have hvalue : -(distance.natAbs : Int) = distance := by omega
    rw [hvalue] at hinteger
    exact Decimal.literal_of_isInteger hexact hinteger
  · next hnonnegative =>
    obtain ⟨exact, hexact, hinteger⟩ := Binary.ofFloat32_singleOfNat hdistance
    have hvalue : (distance.natAbs : Int) = distance := by omega
    rw [hvalue] at hinteger
    exact Decimal.literal_of_isInteger hexact hinteger

theorem exists_tap
    {radius k : Nat} {standard : List Float32} (hradius : radius < 16777216)
    (hlength : standard.length = radius + 1) (hk : k ≤ 2 * radius) :
    ∃ tap weight,
      (taps radius standard)[k]? = some tap ∧
        standard[((k : Int) - radius).natAbs]? = some weight ∧
        Decimal.literal tap.offset = toString ((k : Int) - radius) ++ ".0" ∧
        tap.weight = weight := by
  have hindex : ((k : Int) - radius).natAbs < standard.length := by omega
  have hrange : (List.range (2 * radius + 1))[k]? = some k := List.getElem?_range (by omega)
  have hweight := List.getElem?_eq_getElem hindex
  have htap :
      (taps radius standard)[k]? =
        some
          ⟨if (k : Int) - radius < 0 then -Binary.singleOfNat ((k : Int) - radius).natAbs
            else Binary.singleOfNat ((k : Int) - radius).natAbs,
            (standard[((k : Int) - radius).natAbs]?).getD 0.0⟩ := by
    rw [taps, List.getElem?_map, hrange]
    rfl
  refine ⟨_, _, htap, hweight, literal_offset (by omega), ?_⟩
  rw [hweight, Option.getD_some]

theorem samplesWindow_body
    (dialect : Dialect) {params : BlurParams} (threshold : Option Float32)
    (hradius : params.radius < 16777216) :
    SamplesWindow dialect params threshold
      (body dialect threshold
        (taps params.radius (GaussianWeights.ofParams params).standard)) := by
  have hlength := GaussianWeights.length_standard_ofParams params
  constructor
  · rw [length_sumLines_body, taps, List.length_map, List.length_range]
  · intro k hk
    obtain ⟨tap, weight, htap, hweight, hoffset, rfl⟩ := exists_tap hradius hlength hk
    obtain ⟨mirrored, other, hmirrored, hother, hmirroredOffset, rfl⟩ :=
      exists_tap hradius hlength (Nat.sub_le (2 * params.radius) k)
    have hdistance :
        (((2 * params.radius - k : Nat) : Int) - params.radius).natAbs =
          ((k : Int) - params.radius).natAbs := by
      omega
    have hsame : mirrored.weight = tap.weight := by
      rw [hdistance, hweight] at hother
      exact (Option.some.inj hother).symm
    have hfirst := tapAt_body dialect threshold htap
    have hsecond := tapAt_body dialect threshold hmirrored
    rw [accumulate_eq_tapText, hoffset] at hfirst
    rw [accumulate_eq_tapText, hmirroredOffset, hsame] at hsecond
    exact ⟨tap.weight, hweight, hfirst, hsecond⟩
  · intro line hline
    rw [lines_body] at hline
    obtain ⟨text, htext, rfl⟩ := List.mem_map.mp hline
    exact (bodyLine_of_mem_bodyLines htext).compares_iff

end ReferenceBlur

/-- The functions of the fragment stage. -/
def Pass.fragmentFunctions (pass : Pass) : List ShaderFunction :=
  match pass.fragment with
  | some part => part.functions
  | none => []

namespace ReferenceBlur

theorem axisPass_samplesWindow
    (blur : ReferenceBlur) (dialect : Dialect) (threshold : Option Float32) (x y : Float32) :
    ∃ function, (axisPass dialect blur.params threshold x y).fragmentFunctions = [function] ∧
      SamplesWindow dialect blur.params threshold function.body := by
  have hradius : blur.params.radius < 16777216 := by
    have hle := BlurParams.sampledRadius_le blur.radius
    change BlurParams.sampledRadius blur.radius < _
    omega
  exact ⟨_, rfl, samplesWindow_body dialect threshold hradius⟩

/-- Without a threshold a pass depends on the radius alone. -/
theorem axisPass_none_congr
    (dialect : Dialect) {blur other : ReferenceBlur} (hradius : other.radius = blur.radius)
    (x y : Float32) :
    axisPass dialect other.params none x y = axisPass dialect blur.params none x y := by
  obtain ⟨radius, options, threshold⟩ := blur
  obtain ⟨otherRadius, otherOptions, otherThreshold⟩ := other
  subst hradius
  rfl

/-- A blur of no radius is one pass that does nothing and may be joined with others.  Any
other takes two passes of its own, each with one function that samples the whole window;
the first alone compares with a threshold, and only if that was asked for. -/
theorem passes_sample_window (blur : ReferenceBlur) (dialect : Dialect) :
    (blur.radius = 0 →
      blur.effect.passes dialect = [.identity] ∧ blur.effect.joinable = true) ∧
    (blur.radius ≠ 0 →
      blur.effect.joinable = false ∧
      ∃ first second,
        blur.effect.passes dialect = [first, second] ∧
        (∃ function, first.fragmentFunctions = [function] ∧
          SamplesWindow dialect blur.params
            (if blur.options.luminanceThreshold then some blur.threshold else none)
            function.body) ∧
        (∃ function, second.fragmentFunctions = [function] ∧
          SamplesWindow dialect blur.params none function.body) ∧
        ∀ other : ReferenceBlur, other.radius = blur.radius →
          (other.effect.passes dialect)[1]? = some second) := by
  constructor
  · intro hradius
    exact ⟨if_pos hradius, decide_eq_true hradius⟩
  · intro hradius
    refine ⟨decide_eq_false hradius, _, _, if_neg hradius, ?_, ?_, ?_⟩
    · exact blur.axisPass_samplesWindow dialect blur.activeThreshold 1.0 0.0
    · exact blur.axisPass_samplesWindow dialect none 0.0 1.0
    · intro other hsame
      have hpasses :
          other.effect.passes dialect =
            [axisPass dialect other.params other.activeThreshold 1.0 0.0,
              axisPass dialect other.params none 0.0 1.0] :=
        if_neg (hsame ▸ hradius)
      rw [hpasses]
      exact congrArg some (axisPass_none_congr dialect hsame 0.0 1.0)

end ReferenceBlur

end ShaderComposer
