import Cosmac.Sound.Mixer
import Cosmac.Word
import Mathlib.Data.List.Basic
import Mathlib.Algebra.Order.Group.Int
import Mathlib.Algebra.Order.Group.Abs

/-!
# Tones without a seam

The buffer of a tone is whole periods of a square wave (`toList_samples`), in which every sample
stands once for each channel (`Runs.toList_stretch`) and every word is two bytes. All three are
lists of blocks of one length, and `getElem?_blocks` says what stands where in such a list.

Main statement: each frame of the buffer is high or low by its place in its period, on all channels,
and playing the buffer again goes on with the wave (`seamless`).
-/

namespace Cosmac

namespace Wave

variable {w : Wave} {frequency : Number} {rate channels amplitude : Int} {k c : Nat}

/-! ## The samples of a wave -/

/-- The level of a place in a period. -/
def level (w : Wave) (place : Nat) : Int :=
  if place < w.period / 2 then w.amplitude else -w.amplitude

/-- The levels of one period: the high ones, then the low ones. -/
def levels (w : Wave) : List Int :=
  List.replicate (w.period / 2) w.amplitude ++
    List.replicate (w.period - w.period / 2) (-w.amplitude)

/-- The samples of one period. -/
def onePeriod (w : Wave) : List Sample :=
  w.levels.map (BitVec.ofInt 16)

/-- A period has as many levels as frames. -/
theorem length_levels (w : Wave) : w.levels.length = w.period := by
  rw [levels, List.length_append, List.length_replicate, List.length_replicate]
  omega

/-- The levels of a period stand at their places. -/
theorem getElem?_levels (w : Wave) {place : Nat} (within : place < w.period) :
    w.levels[place]? = some (w.level place) := by
  unfold levels level
  by_cases high : place < w.period / 2
  · rw [List.getElem?_append_left (by rwa [List.length_replicate]), List.getElem?_replicate,
      if_pos high, if_pos high]
  · have low : place - w.period / 2 < w.period - w.period / 2 := by omega
    rw [List.getElem?_append_right (by rw [List.length_replicate]; omega), List.length_replicate,
      List.getElem?_replicate, if_pos low, if_neg high]

/-- A period from its first to its last place is its levels. -/
theorem map_level_range (w : Wave) : (List.range w.period).map w.level = w.levels := by
  refine List.ext_getElem? fun place => ?_
  by_cases within : place < w.period
  · rw [List.getElem?_map, List.getElem?_range within, w.getElem?_levels within, Option.map_some]
  · have past : w.period ≤ place := Nat.le_of_not_lt within
    rw [List.getElem?_eq_none (by simpa using past),
      List.getElem?_eq_none (by rwa [w.length_levels])]

/-- **The samples of a wave are so many times those of one period.** -/
theorem toList_samples (w : Wave) :
    w.samples.toList = (List.replicate w.periods w.onePeriod).flatMap id := by
  rw [samples, Runs.toList_flatten, List.flatMap_replicate, List.flatMap_replicate]
  simp [onePeriod, levels]

theorem length_of_mem_replicate {block : List Sample} {n : Nat}
    (listed : block ∈ List.replicate n w.onePeriod) : (id block).length = w.period := by
  rw [List.eq_of_mem_replicate listed, id_eq, onePeriod, List.length_map, length_levels]

/-- A wave has one sample for each frame. -/
theorem length_samples (w : Wave) : w.samples.toList.length = w.frameCount := by
  rw [toList_samples, length_blocks fun _ => length_of_mem_replicate, List.length_replicate,
    frameCount, Nat.mul_comm]

/-- The samples repeat with the period: what counts is the place in it. -/
theorem getElem?_samples (within : k < w.frameCount) :
    w.samples.toList[k]? = some (BitVec.ofInt 16 (w.level (k % w.period))) := by
  have positive : 0 < w.period := Nat.pos_of_mul_pos_right (Nat.zero_lt_of_lt within)
  have place : k % w.period < w.period := Nat.mod_lt k positive
  have number : k / w.period < w.periods := Nat.div_lt_of_lt_mul within
  rw [← Nat.div_add_mod' k w.period, toList_samples,
    getElem?_blocks (fun _ => length_of_mem_replicate) _ place, List.getElem?_replicate,
    if_pos number, Nat.div_add_mod', Option.bind_some, id_eq, onePeriod, List.getElem?_map,
    w.getElem?_levels place, Option.map_some]

/-! ## Channels and bytes -/

/-- The sample of a channel in a frame of the buffer. -/
def sampleAt (w : Wave) (k c : Nat) : Option Sample :=
  w.interleaved.toList[k * w.channelCount + c]?

/-- A sample as bytes, the low byte first. -/
def sampleBytes (s : Sample) : List Byte :=
  [s.extractLsb' 0 8, s.extractLsb' 8 8]

/-- The buffer as bytes. -/
def bytes (w : Wave) : List Byte :=
  w.interleaved.toList.flatMap sampleBytes

/-- The word of two bytes next to each other. -/
def wordAt (bytes : List Byte) (j : Nat) : Option Sample :=
  bytes[j * 2]?.bind fun low => bytes[j * 2 + 1]?.map fun high => high ++ low

/-- **All channels of a frame hold the sample of the wave.** -/
theorem sampleAt_eq (within : k < w.frameCount) (channel : c < w.channelCount) :
    w.sampleAt k c = some (BitVec.ofInt 16 (w.level (k % w.period))) := by
  rw [sampleAt, interleaved, Runs.toList_stretch,
    getElem?_blocks (fun _ _ => List.length_replicate) k channel, getElem?_samples within,
    Option.bind_some, List.getElem?_replicate, if_pos channel]

/-- The buffer has one sample for each channel of each frame. -/
theorem length_interleaved (w : Wave) :
    w.interleaved.toList.length = w.frameCount * w.channelCount := by
  rw [interleaved, Runs.toList_stretch, length_blocks fun _ _ => List.length_replicate,
    length_samples]

theorem length_sampleBytes (s : Sample) : (sampleBytes s).length = 2 :=
  rfl

/-- A buffer has as many bytes as are computed for it. -/
theorem length_bytes (w : Wave) : w.bytes.length = w.byteCount := by
  rw [bytes, length_blocks fun s _ => length_sampleBytes s, length_interleaved, byteCount]

/-- The two bytes of a sample make it up again. -/
theorem append_sampleBytes (s : Sample) : s.extractLsb' 8 8 ++ s.extractLsb' 0 8 = s := by
  refine BitVec.eq_of_getLsbD_eq fun i within => ?_
  rw [BitVec.getLsbD_append]
  split
  case isTrue low => simp [low]
  case isFalse high =>
    have place : 8 + (i - 8) = i := by omega
    have inside : i - 8 < 8 := by omega
    simp [place, inside]

/-- The words of the buffer are its samples. -/
theorem wordAt_bytes (w : Wave) (j : Nat) : wordAt w.bytes j = w.interleaved.toList[j]? := by
  have low : w.bytes[j * 2]? = _ :=
    getElem?_blocks (fun s _ => length_sampleBytes s) j Nat.two_pos
  have high : w.bytes[j * 2 + 1]? = _ :=
    getElem?_blocks (fun s _ => length_sampleBytes s) j Nat.one_lt_two
  rw [wordAt, low, high]
  cases w.interleaved.toList[j]? with
  | none => rfl
  | some s => exact congrArg some (append_sampleBytes s)

/-! ## How a wave is made -/

variable {mixer : Mixer} {volume : Float}

/-- What the lengths of a wave are computed from, and what they are. -/
structure Measured (frequency : Number) (rate : Int) (w : Wave) : Prop where
  acceptable : acceptable frequency = true
  /-- The period is the rate over the frequency to the nearest whole number, and two at least. -/
  period : ∃ quotient nearest, quotient? rate frequency = .ok quotient ∧
    round? quotient = .ok nearest ∧ (w.period : Int) = max 2 nearest
  /-- There are as many periods as fit into a tenth of a second, and one at least. -/
  periods : ∃ seconds room, toFloat? rate = .ok seconds ∧
    truncate? (seconds * bufferSeconds) = .ok room ∧
    (w.periods : Int) = max 1 (Int.fdiv room w.period) ∧
    (w.periods * w.period : Int) ≤ max (w.period : Int) room

/-- As many periods as fit are no longer than the room for them, if one fits. -/
theorem mul_max_one_fdiv_le {period : Int} (room : Int) (positive : 0 < period) :
    max 1 (Int.fdiv room period) * period ≤ max period room := by
  rcases Int.le_total (Int.fdiv room period) 1 with few | many
  · rw [max_eq_left few, Int.one_mul]
    exact le_max_left ..
  · rw [max_eq_right many, Int.mul_comm]
    exact (Int.mul_fdiv_self_le positive).trans (le_max_right ..)

/-- What two steps deliver has passed both. -/
theorem exists_of_bind_eq_ok {ε α β : Type} {x : Except ε α} {f : α → Except ε β} {b : β}
    (fine : x >>= f = .ok b) : ∃ a, x = .ok a ∧ f a = .ok b := by
  cases x with
  | error e => cases fine
  | ok a => exact ⟨a, rfl, fine⟩

/-- A wave that is made has the measures asked for, with its amplitude and channels. -/
theorem measured_of_make? (made : make? frequency rate channels amplitude = .ok w) :
    Measured frequency rate w ∧ w.amplitude = amplitude ∧ w.channels = channels := by
  unfold make? at made
  split at made
  case isTrue => cases made
  case isFalse good =>
  obtain ⟨quotient, ratio, made⟩ := exists_of_bind_eq_ok made
  obtain ⟨nearest, rounded, made⟩ := exists_of_bind_eq_ok made
  obtain ⟨seconds, float, made⟩ := exists_of_bind_eq_ok made
  obtain ⟨room, cut, made⟩ := exists_of_bind_eq_ok made
  simp only at made
  split at made
  case isTrue => cases made
  case isFalse =>
  cases made
  have two : 2 ≤ max 2 nearest := le_max_left ..
  have one : 1 ≤ max 1 (Int.fdiv room (max 2 nearest)) := le_max_left ..
  have period : ((max 2 nearest).toNat : Int) = max 2 nearest := Int.toNat_of_nonneg (by omega)
  have periods : ((max 1 (Int.fdiv room (max 2 nearest))).toNat : Int) = _ :=
    Int.toNat_of_nonneg (by omega)
  refine ⟨⟨by simpa using good, ⟨quotient, nearest, ratio, rounded, period⟩,
    ⟨seconds, room, float, cut, ?_, ?_⟩⟩, rfl, rfl⟩
  · rw [periods, period]
  · rw [periods, period]
    exact mul_max_one_fdiv_le room (by omega)

/-- A period has room for a high and a low half. -/
theorem Measured.two_le_period (measured : Measured frequency rate w) : 2 ≤ w.period := by
  obtain ⟨-, nearest, -, -, period⟩ := measured.period
  have two : 2 ≤ max 2 nearest := le_max_left ..
  omega

/-- From one channel on there are as many as asked for. -/
theorem channelCount_eq (heard : 1 ≤ w.channels) : w.channelCount = w.channels.toNat := by
  unfold channelCount
  split <;> omega

/-- A level within the range of a sample is stored as it is. -/
theorem toInt_ofInt_level (small : |w.amplitude| ≤ 32767) (place : Nat) :
    (BitVec.ofInt 16 (w.level place)).toInt = w.level place := by
  obtain ⟨low, high⟩ := abs_le.mp small
  rw [BitVec.toInt_ofInt]
  unfold level
  split
  · exact Int.bmod_eq_of_le (by omega) (by omega)
  · exact Int.bmod_eq_of_le (by omega) (by omega)

/-- **The wave in a frame, on any channel.** -/
theorem toInt_sampleAt (small : |w.amplitude| ≤ 32767) (within : k < w.frameCount)
    (channel : c < w.channelCount) :
    (w.sampleAt k c).map BitVec.toInt = some (w.level (k % w.period)) := by
  rw [sampleAt_eq within channel, Option.map_some, toInt_ofInt_level small]

/-- A period of a channel, read from its first frame to its last. -/
theorem map_toInt_sampleAt (small : |w.amplitude| ≤ 32767) {i : Nat} (number : i < w.periods)
    (channel : c < w.channelCount) :
    (List.range w.period).map (fun place =>
      (w.sampleAt (i * w.period + place) c).map BitVec.toInt) = w.levels.map some := by
  rw [← map_level_range, List.map_map]
  refine List.map_congr_left fun place listed => ?_
  have inside : place < w.period := List.mem_range.mp listed
  have within : i * w.period + place < w.frameCount := by
    have whole : (i + 1) * w.period ≤ w.periods * w.period := Nat.mul_le_mul_right _ number
    rw [Nat.succ_mul] at whole
    rw [frameCount, Nat.mul_comm w.period]
    omega
  rw [toInt_sampleAt small within channel, Nat.mul_add_mod_self_right, Nat.mod_eq_of_lt inside]
  rfl

/-- **Playing the buffer again goes on with the wave.** -/
theorem sampleAt_add_period (within : k < w.frameCount) (channel : c < w.channelCount) :
    w.sampleAt ((k + w.period) % w.frameCount) c = w.sampleAt k c := by
  have next : (k + w.period) % w.frameCount < w.frameCount :=
    Nat.mod_lt _ (Nat.zero_lt_of_lt within)
  have place : (k + w.period) % w.frameCount % w.period = k % w.period := by
    rw [frameCount, Nat.mod_mul_right_mod, Nat.add_mod_right]
  rw [sampleAt_eq next channel, sampleAt_eq within channel, place]

/-- **What is handed to a mixer.** -/
theorem requests_ofMixer {f : Mixer.Format} (opened : mixer.format = some f)
    (made : make? frequency f.rate f.channels defaultAmplitude = .ok w) :
    (Speaker.Looped.ofMixer frequency volume mixer).requests =
      [.sound w, .setVolume (Speaker.clampVolume volume)] := by
  unfold Speaker.Looped.ofMixer
  rw [opened]
  simp only
  rw [made]

/-- **The buffer of a tone.** Take a frequency, a rate, one channel or more and an amplitude that
fits a sample, of which a wave is made. A frame of the buffer is high on all its channels if its
place in its period is in the first half, and low on all of them otherwise; so every period of a
channel is its high samples, then its low ones, of both of which there is one at least. The frame
that follows a period later, past the end of the buffer at its start again, is the same: playing the buffer over
and over makes no jump. The buffer is no longer than it is asked to be, or it is a single period. In
its bytes the channels of a frame stand next to each other, each as a word, and a mixer whose format
has the rate and the channels is asked for a sound of this very wave. -/
theorem seamless (made : make? frequency rate channels amplitude = .ok w) (heard : 1 ≤ channels)
    (small : |amplitude| ≤ 32767) :
    Measured frequency rate w ∧
      w.interleaved.toList.length = w.periods * w.period * channels.toNat ∧
      (∀ k c, k < w.periods * w.period → c < channels.toNat →
        (w.sampleAt k c).map BitVec.toInt =
            some (if k % w.period < w.period / 2 then amplitude else -amplitude) ∧
          w.sampleAt ((k + w.period) % (w.periods * w.period)) c = w.sampleAt k c) ∧
      (∀ i c, i < w.periods → c < channels.toNat →
        (List.range w.period).map (fun place =>
            (w.sampleAt (i * w.period + place) c).map BitVec.toInt) =
          List.replicate (w.period / 2) (some amplitude) ++
            List.replicate (w.period - w.period / 2) (some (-amplitude))) ∧
      (0 < w.period / 2 ∧ 0 < w.period - w.period / 2) ∧
      (w.bytes.length = w.periods * w.period * channels.toNat * 2 ∧
        ∀ k c, c < channels.toNat →
          wordAt w.bytes (k * channels.toNat + c) = w.sampleAt k c) ∧
      ∀ (mixer : Mixer) (sampleSize : Int) (volume : Float),
        mixer.format = some ⟨rate, sampleSize, channels⟩ → amplitude = defaultAmplitude →
          (Speaker.Looped.ofMixer frequency volume mixer).requests =
            [.sound w, .setVolume (Speaker.clampVolume volume)] := by
  obtain ⟨measured, rfl, rfl⟩ := measured_of_make? made
  have frames : w.periods * w.period = w.frameCount := Nat.mul_comm ..
  have two := measured.two_le_period
  rw [← channelCount_eq heard, frames]
  refine ⟨measured, w.length_interleaved, ?_, ?_, ⟨by omega, by omega⟩, ⟨w.length_bytes, ?_⟩, ?_⟩
  · exact fun k c within channel =>
      ⟨toInt_sampleAt small within channel, sampleAt_add_period within channel⟩
  · intro i c number channel
    rw [map_toInt_sampleAt small number channel, levels, List.map_append, List.map_replicate,
      List.map_replicate]
  · exact fun k c _ => w.wordAt_bytes _
  · rintro mixer sampleSize volume opened loudness
    exact requests_ofMixer opened (loudness ▸ made)

/-- The wave of the usual tone at the usual rate, on two channels. -/
def stereo : Wave :=
  ⟨102, 43, 8000, 2⟩

/-- A mixer that was opened with two channels. -/
def stereoMixer : Mixer :=
  ⟨some ⟨44100, -16, 2⟩, fun _ => true, none, none⟩

theorem seamless_stereo :
    make? Speaker.defaultPitch 44100 2 defaultAmplitude = .ok stereo ∧ (1 : Int) ≤ 2 ∧
      |defaultAmplitude| ≤ 32767 ∧
      (stereo.sampleAt 4385 1).map BitVec.toInt = some (-8000) ∧
      stereo.sampleAt ((4385 + 102) % 4386) 1 = stereo.sampleAt 4385 1 ∧
      stereo.bytes.length = 17544 ∧
      wordAt stereo.bytes (4385 * 2 + 1) = stereo.sampleAt 4385 1 ∧
      (Speaker.Looped.ofMixer Speaker.defaultPitch Speaker.defaultVolume stereoMixer).requests =
        [.sound stereo, .setVolume (Speaker.clampVolume Speaker.defaultVolume)] := by
  have made : make? Speaker.defaultPitch 44100 2 defaultAmplitude = .ok stereo := rfl
  obtain ⟨-, -, frames, -, -, ⟨size, words⟩, asked⟩ := seamless made (by decide) (by decide)
  obtain ⟨level, loop⟩ := frames 4385 1 (by decide) (by decide)
  exact ⟨made, by decide, by decide, level, loop, size, words 4385 1 (by decide),
    asked stereoMixer (-16) _ rfl rfl⟩

end Wave

end Cosmac
