import ShaderComposer.Effect.Gaussian
import Mathlib.Logic.ExistsUnique
import Mathlib.Tactic.ByContra

/-!
# Every tap of a blur is sampled once

The radius that is sampled is cut by the radius asked for, by the taps that still show
and by an overall bound; the number of merged samples is cut once more.  Whether samples
merge two taps or one is not stored but told from two other counts.  What stands at the
end does not depend on the visible taps: the samples take the taps from the center
outwards, one or two each, the taps they leave begin right behind the last of them, and
no sample begins outside of the radius.
-/

namespace ShaderComposer

namespace BlurParams

/-- The cuts that a radius and the options put on the numbers of a blur. -/
structure FitsRadius (params : BlurParams) (radius : Nat) (options : BlurOptions) : Prop where
  radius_eq_zero_iff : params.radius = 0 ↔ radius = 0
  radius_bounds : radius ≠ 0 → 1 ≤ params.radius ∧ params.radius ≤ min radius 256
  mergedSamples_le : params.mergedSamples ≤ min 6 params.trueMergedSamples
  linearFiltering_iff :
    params.linearFiltering = true ↔ options.linearFiltering = true ∧ 2 ≤ radius

/-- Whatever number of taps is visible, one at least and no more than asked for are
sampled. -/
theorem sampledRadius_bounds {radius : Nat} (hradius : radius ≠ 0) :
    1 ≤ sampledRadius radius ∧ sampledRadius radius ≤ min radius 256 := by
  rw [sampledRadius, if_neg hradius, maxBlurRadius]
  generalize visibleTaps (sigmaOf radius) = visible
  omega

@[simp] theorem sampledRadius_zero : sampledRadius 0 = 0 :=
  rfl

theorem sampledRadius_le (radius : Nat) : sampledRadius radius ≤ min radius 256 := by
  by_cases hradius : radius = 0
  · simp [hradius]
  · exact (sampledRadius_bounds hradius).2

theorem samplesFor_mono (options : BlurOptions) {fewer more : Nat} (h : fewer ≤ more) :
    samplesFor options fewer ≤ samplesFor options more := by
  unfold samplesFor
  split <;> omega

theorem linearFiltering_ofRadius_iff (radius : Nat) (options : BlurOptions) :
    (ofRadius radius options).linearFiltering = true ↔
      options.linearFiltering = true ∧ 2 ≤ radius := by
  have hcounts :
      (ofRadius radius options).linearFiltering = true ↔ samplesFor options radius < radius :=
    decide_eq_true_iff
  rw [hcounts, samplesFor]
  cases options.linearFiltering with
  | true =>
      simp only [if_true, true_and]
      omega
  | false =>
      simp

theorem fitsRadius_ofRadius (radius : Nat) (options : BlurOptions) :
    (ofRadius radius options).FitsRadius radius options := by
  constructor
  · constructor
    · intro hzero
      by_contra hradius
      exact absurd hzero (Nat.one_le_iff_ne_zero.mp (sampledRadius_bounds hradius).1)
    · rintro rfl
      rfl
  · exact sampledRadius_bounds
  · have hle : sampledRadius radius ≤ radius :=
      Nat.le_trans (sampledRadius_le radius) (Nat.min_le_left radius 256)
    have hmono := samplesFor_mono options hle
    simp only [ofRadius, maxMergedSamples]
    omega
  · exact linearFiltering_ofRadius_iff radius options

/-! ## The taps of a sample -/

section Samples

variable (params : BlurParams)

/-- The tap with which a merged sample begins. -/
def firstTap (sample : Nat) : Nat :=
  if params.linearFiltering then 2 * sample + 1 else sample + 1

/-- The taps that a merged sample stands for.  The second may lie beyond the radius. -/
def sampleTaps (sample : Nat) : List Nat :=
  params.firstTap sample :: if params.linearFiltering then [params.firstTap sample + 1] else []

/-- The merged sample that takes a tap, if there are that many samples. -/
def sampleOf (tap : Nat) : Nat :=
  if params.linearFiltering then (tap - 1) / 2 else tap - 1

/-- What a tap weighs, nothing beyond the radius. -/
def tapWeight (tap : Nat) : Float :=
  ((GaussianWeights.normalized params.radius (Binary.widen params.sigma))[tap]?).getD 0.0

/-- What several taps weigh, added from left to right. -/
def weightOf : List Nat → Float
  | [] => 0.0
  | tap :: more => more.foldl (fun sum other => sum + params.tapWeight other) (params.tapWeight tap)

theorem mem_sampleTaps_iff {tap sample : Nat} (htap : 1 ≤ tap) :
    tap ∈ params.sampleTaps sample ↔ sample = params.sampleOf tap := by
  unfold sampleTaps firstTap sampleOf
  cases params.linearFiltering with
  | true =>
      simp only [if_true, List.mem_cons, List.not_mem_nil, or_false]
      omega
  | false =>
      simp only [Bool.false_eq_true, if_false, List.mem_singleton]
      omega

theorem sampleOf_lt_iff {tap : Nat} (htap : 1 ≤ tap) :
    params.sampleOf tap < params.mergedSamples ↔
      tap < (GaussianWeights.ofParams params).trailingStart := by
  unfold sampleOf GaussianWeights.ofParams
  cases params.linearFiltering with
  | true =>
      simp only [if_true]
      omega
  | false =>
      simp only [Bool.false_eq_true, if_false]
      omega

end Samples

theorem firstTap_bounds
    {radius : Nat} {options : BlurOptions} {sample : Nat}
    (hsample : sample < (ofRadius radius options).mergedSamples) :
    1 ≤ (ofRadius radius options).firstTap sample ∧
      (ofRadius radius options).firstTap sample ≤ (ofRadius radius options).radius := by
  have hlinear := linearFiltering_ofRadius_iff radius options
  have hle := sampledRadius_le radius
  have hcount : sample < samplesFor options (sampledRadius radius) :=
    Nat.lt_of_lt_of_le hsample (Nat.min_le_left _ _)
  change _ ∧ _ ≤ sampledRadius radius
  unfold firstTap
  unfold samplesFor at hcount
  split
  · next hmerging =>
    rw [if_pos (hlinear.mp hmerging).1] at hcount
    omega
  · next hmerging =>
    -- linear filtering that merges nothing was asked for at a radius of one at most
    have hnot : ¬ (options.linearFiltering = true ∧ 2 ≤ radius) :=
      fun h => hmerging (hlinear.mpr h)
    split at hcount
    · next hasked =>
      have hsmall : radius < 2 := by
        by_contra hlarge
        exact hnot ⟨hasked, by omega⟩
      omega
    · omega

end BlurParams

/-! ## Where a tap is sampled -/

/-- Where the weight of a tap is found: in a merged sample, or in the standard weights at
an index that the merged samples leave. -/
inductive TapPlace where
  | merged (sample : Nat)
  | single (index : Nat)

def TapPlace.Covers
    (weights : GaussianWeights) (params : BlurParams) (tap : Nat) : TapPlace → Prop
  | merged sample =>
    sample < weights.mergedWeights.length ∧ tap ∈ params.sampleTaps sample
  | single index =>
    weights.trailingStart ≤ index ∧ index < weights.standard.length ∧ index = tap

namespace GaussianWeights

/-- The weights are those of the taps, and every tap has one place. -/
structure CoverTaps (weights : GaussianWeights) (params : BlurParams) : Prop where
  length_standard : weights.standard.length = params.radius + 1
  length_mergedOffsets : weights.mergedOffsets.length = params.mergedSamples
  length_mergedWeights : weights.mergedWeights.length = params.mergedSamples
  standard_weight :
    ∀ tap ≤ params.radius,
      weights.standard[tap]? = some (Binary.narrow (params.tapWeight tap))
  merged_weight :
    ∀ sample < params.mergedSamples,
      weights.mergedWeights[sample]? =
        some (Binary.narrow (params.weightOf (params.sampleTaps sample)))
  firstTap_within :
    ∀ sample < params.mergedSamples,
      1 ≤ params.firstTap sample ∧ params.firstTap sample ≤ params.radius
  covered_once :
    ∀ tap, 1 ≤ tap → tap ≤ params.radius →
      ∃! place : TapPlace, place.Covers weights params tap

section Lengths

variable (params : BlurParams)

@[simp] theorem length_normalized (radius : Nat) (sigma : Float) :
    (normalized radius sigma).length = radius + 1 := by
  simp [normalized]

@[simp] theorem length_standard_ofParams :
    (ofParams params).standard.length = params.radius + 1 := by
  simp [ofParams]

@[simp] theorem length_mergedOffsets_ofParams :
    (ofParams params).mergedOffsets.length = params.mergedSamples := by
  simp [ofParams]

@[simp] theorem length_mergedWeights_ofParams :
    (ofParams params).mergedWeights.length = params.mergedSamples := by
  simp [ofParams]

end Lengths

theorem standard_ofParams_get? {params : BlurParams} {tap : Nat} (htap : tap ≤ params.radius) :
    (ofParams params).standard[tap]? = some (Binary.narrow (params.tapWeight tap)) := by
  have hlength : tap < (normalized params.radius (Binary.widen params.sigma)).length := by
    rw [length_normalized]
    omega
  simp [ofParams, BlurParams.tapWeight, List.getElem?_eq_getElem hlength]

theorem mergedWeights_ofParams_get?
    {params : BlurParams} {sample : Nat} (hsample : sample < params.mergedSamples) :
    (ofParams params).mergedWeights[sample]? =
      some (Binary.narrow (params.weightOf (params.sampleTaps sample))) := by
  simp only [ofParams, List.getElem?_map, List.getElem?_range hsample, Option.map_some]
  unfold BlurParams.sampleTaps BlurParams.firstTap
  cases params.linearFiltering <;> rfl

theorem covered_once_ofParams
    (params : BlurParams) {tap : Nat} (hfirst : 1 ≤ tap) (hlast : tap ≤ params.radius) :
    ∃! place : TapPlace, place.Covers (ofParams params) params tap := by
  have hsample := params.sampleOf_lt_iff hfirst
  by_cases hmerged : tap < (ofParams params).trailingStart
  · refine ⟨.merged (params.sampleOf tap), ⟨?_, ?_⟩, ?_⟩
    · rw [length_mergedWeights_ofParams]
      exact hsample.mpr hmerged
    · exact (params.mem_sampleTaps_iff hfirst).mpr rfl
    · intro place hplace
      cases place with
      | merged sample =>
          exact congrArg _ ((params.mem_sampleTaps_iff hfirst).mp hplace.2)
      | single index =>
          obtain ⟨hleft, -, rfl⟩ := hplace
          exact absurd hmerged (Nat.not_lt.mpr hleft)
  · refine ⟨.single tap, ⟨Nat.not_lt.mp hmerged, ?_, rfl⟩, ?_⟩
    · rw [length_standard_ofParams]
      exact Nat.lt_succ_of_le hlast
    · intro place hplace
      cases place with
      | merged sample =>
          obtain ⟨hcount, hmem⟩ := hplace
          rw [length_mergedWeights_ofParams, (params.mem_sampleTaps_iff hfirst).mp hmem] at hcount
          exact absurd (hsample.mp hcount) hmerged
      | single index =>
          exact congrArg _ hplace.2.2

end GaussianWeights

/-- Within the cuts on its numbers, a blur samples every tap of its radius in one place,
whatever the number of visible taps is. -/
theorem blur_samples_every_tap_once (radius : Nat) (options : BlurOptions) :
    (BlurParams.ofRadius radius options).FitsRadius radius options ∧
      (GaussianWeights.ofParams (.ofRadius radius options)).CoverTaps
        (.ofRadius radius options) := by
  refine ⟨BlurParams.fitsRadius_ofRadius radius options, ?_⟩
  constructor
  · exact GaussianWeights.length_standard_ofParams _
  · exact GaussianWeights.length_mergedOffsets_ofParams _
  · exact GaussianWeights.length_mergedWeights_ofParams _
  · intro tap htap
    exact GaussianWeights.standard_ofParams_get? htap
  · intro sample hsample
    exact GaussianWeights.mergedWeights_ofParams_get? hsample
  · intro sample hsample
    exact BlurParams.firstTap_bounds hsample
  · intro tap hfirst hlast
    exact GaussianWeights.covered_once_ofParams _ hfirst hlast

end ShaderComposer
