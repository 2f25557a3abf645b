import Cosmac.Picture.Png

/-!
# Pictures that can be read back

A bitmap goes out as text and as an image. Both are blocks of one length: two characters for a dot
in a line of text, so many equal pixels for a dot in a row of pixels, and so many equal rows of
pixels for a row of dots. So what shows a dot is found by multiplication and the dot that is shown
by division, and each picture can be read back without the other: the text by every second
character, the image by one pixel of each square, whichever that is.

Main statement: both pictures show the dots of the bitmap, and both lead back to it
(`pictures_lossless`).
-/

namespace Cosmac

namespace Bitmap

/-- Every row is as long as the bitmap is wide. -/
def Rectangular (b : Bitmap) : Prop :=
  ∀ row ∈ b.rows, row.length = b.width

/-- The dot in a row and a column is on. Beyond the bitmap there is none. -/
def lit (b : Bitmap) (r c : Nat) : Bool :=
  (b.rows[r]?.bind (·[c]?)).getD false

variable {b : Bitmap} {r c : Nat}

/-- A row of a rectangle has the dots of that row. -/
theorem Rectangular.getElem?_row (rectangular : b.Rectangular) {row : List Bool}
    (here : b.rows[r]? = some row) (within : c < b.width) : row[c]? = some (b.lit r c) := by
  have long : c < row.length := by
    rw [rectangular row (List.mem_of_getElem? here)]
    exact within
  rw [lit, here, Option.bind_some, List.getElem?_eq_getElem long, Option.getD_some]

/-- A bitmap is the list of its dots, row by row. -/
theorem Rectangular.rows_eq (rectangular : b.Rectangular) :
    b.rows = (List.range b.rows.length).map fun r => (List.range b.width).map (b.lit r) := by
  refine List.ext_getElem (by simp) fun r within _ => ?_
  rw [List.getElem_map, List.getElem_range]
  have width : b.rows[r].length = b.width := rectangular _ (List.getElem_mem within)
  refine List.ext_getElem (by simpa using width) fun c inside _ => ?_
  have same := rectangular.getElem?_row (List.getElem?_eq_getElem within) (width ▸ inside)
  rw [List.getElem_map, List.getElem_range]
  exact Option.some.inj ((List.getElem?_eq_getElem inside).symm.trans same)

end Bitmap

namespace Display

/-- The dots of the display fill a rectangle. -/
theorem rectangular_bitmap (d : Display) : d.bitmap.Rectangular := by
  intro row listed
  obtain ⟨cells, -, rfl⟩ := List.mem_map.mp listed
  exact Vector.length_toList

/-- The bitmap of a display has its rows. -/
theorem length_bitmap (d : Display) : d.bitmap.rows.length = 32 := by
  rw [bitmap, toLists, List.length_map]
  exact Vector.length_toList

end Display

namespace Bitmap

variable {b : Bitmap} {r c : Nat}

/-! ## Text -/

/-- The lines of a text, which line feeds separate. -/
def textLines (text : String) : List (List Char) :=
  text.toList.splitOn '\n'

/-- The dots of a line: of every two characters the first one tells. -/
def readLine : List Char → List Bool
  | first :: _ :: rest => (first == '█') :: readLine rest
  | _ => []

/-- The rows of dots that a text shows. -/
def readText (text : String) : List (List Bool) :=
  (textLines text).map readLine

theorem length_glyph (on : Bool) : (glyph on).length = 2 := by
  cases on <;> rfl

/-- A row that is written in glyphs is read back. -/
theorem readLine_glyphs (row : List Bool) : readLine (row.flatMap glyph) = row := by
  induction row with
  | nil => rfl
  | cons on row ih =>
    rw [List.flatMap_cons]
    cases on <;> simpa [glyph, readLine] using ih

/-- No line of glyphs breaks off. -/
theorem newline_not_mem_glyphs (row : List Bool) : '\n' ∉ row.flatMap glyph := by
  intro listed
  obtain ⟨on, -, shown⟩ := List.mem_flatMap.mp listed
  cases on <;> exact absurd shown (by decide)

/-- **The lines of the text are the rows**, as no character of a dot is a line feed. -/
theorem textLines_text (tall : 0 < b.rows.length) :
    textLines b.text = b.rows.map (·.flatMap glyph) := by
  have characters : b.text.toList = ['\n'].intercalate (b.rows.map (·.flatMap glyph)) := by
    rw [text, String.toList_intercalate, lines, List.map_map]
    congr 1
    exact List.map_congr_left fun row _ => String.toList_ofList
  rw [textLines, characters]
  refine List.splitOn_intercalate '\n' ?_ ?_
  · exact List.forall_mem_map.mpr fun row _ => newline_not_mem_glyphs row
  · exact fun none => absurd (List.map_eq_nil_iff.mp none) (List.ne_nil_of_length_pos tall)

/-- The rows of a bitmap are read back from its text. -/
theorem readText_text (tall : 0 < b.rows.length) : readText b.text = b.rows := by
  rw [readText, textLines_text tall, List.map_map]
  exact (List.map_congr_left fun row _ => readLine_glyphs row).trans (List.map_id b.rows)

/-- Either character of a dot. -/
theorem Rectangular.getElem?_textLines (rectangular : b.Rectangular) (row : r < b.rows.length)
    (column : c < b.width) {i : Nat} (within : i < 2) :
    (textLines b.text)[r]?.bind (·[2 * c + i]?) = some (if b.lit r c then '█' else ' ') := by
  have here : b.rows[r]? = some b.rows[r] := List.getElem?_eq_getElem row
  rw [textLines_text (Nat.zero_lt_of_lt row), List.getElem?_map, here, Option.map_some,
    Option.bind_some, Nat.mul_comm, getElem?_blocks (fun on _ => length_glyph on) c within,
    rectangular.getElem?_row here column, Option.bind_some]
  obtain rfl | rfl : i = 0 ∨ i = 1 := by omega
  all_goals cases b.lit r c <;> rfl

end Bitmap

namespace Image

/-- The level of a pixel: white is 255 and black is 0. -/
def level (white : Bool) : Byte :=
  if white then 255 else 0

/-- The level of the pixel in column `x` of row `y`. -/
def level? (m : Image) (x y : Nat) : Option Byte :=
  (m.pixels[y]?.bind (·[x]?)).map level

/-- The dots of an image in which they are squares of `scale` by `scale` pixels, each read off one
pixel of its square, whose column and row in there `pick` gives. -/
def sample (m : Image) (scale : Nat) (pick : Nat → Nat → Nat × Nat) : List (List Bool) :=
  (List.range (m.height / scale)).map fun r =>
    (List.range (m.width / scale)).map fun c =>
      m.level? (c * scale + (pick r c).1) (r * scale + (pick r c).2) == some 255

/-- The byte of a pixel among the rows of a file, each of which has one more byte in front. -/
theorem getElem?_scanlines {m : Image} (straight : ∀ row ∈ m.pixels, row.length = m.width)
    {x y : Nat} (within : x < m.width) :
    (Png.scanlines m)[y * (m.width + 1) + (x + 1)]? = m.level? x y := by
  have length : ∀ row ∈ m.pixels, (0 :: row.map level).length = m.width + 1 := by
    intro row listed
    rw [List.length_cons, List.length_map, straight row listed]
  have block : (Png.scanlines m)[y * (m.width + 1) + (x + 1)]? =
      m.pixels[y]?.bind fun row => (0 :: row.map level)[x + 1]? :=
    getElem?_blocks length y (Nat.succ_lt_succ within)
  rw [block, level?]
  cases m.pixels[y]? with
  | none => rfl
  | some row => exact List.getElem?_map

end Image

namespace Bitmap

variable {b : Bitmap} {m : Image} {scale x y : Nat}

/-! ## Images -/

/-- The image with squares of `scale` by `scale` pixels. -/
def enlarged (b : Bitmap) (scale : Nat) : Image :=
  ⟨b.width * scale, b.rows.length * scale,
    ((Runs.ofList b.rows).stretch scale).mapValues fun row => (Runs.ofList row).stretch scale⟩

/-- From scale one on there is an image, with a square for each dot. -/
theorem image?_of_pos (positive : 1 ≤ scale) : b.image? scale = .ok (b.enlarged scale) := by
  rw [image?, if_neg (by omega)]
  rfl

/-- Only a scale below one is refused. -/
theorem image?_error_iff {scale : Int} : b.image? scale = .error ⟨scale⟩ ↔ scale < 1 := by
  unfold image?
  split
  case isTrue small => exact iff_of_true rfl small
  case isFalse large => exact iff_of_false nofun large

/-- **Rows and columns are repeated alike.** -/
theorem pixels_enlarged (b : Bitmap) (scale : Nat) :
    (b.enlarged scale).pixels =
      (b.rows.flatMap (List.replicate scale)).map (·.flatMap (List.replicate scale)) := by
  rw [Image.pixels, enlarged, Runs.toList_mapValues, Runs.toList_stretch, Runs.toList_ofList,
    List.map_map]
  refine List.map_congr_left fun row _ => ?_
  rw [Function.comp_apply, Runs.toList_stretch, Runs.toList_ofList]

/-- At scale one the pixels are the dots. -/
theorem pixels_enlarged_one (b : Bitmap) : (b.enlarged 1).pixels = b.rows := by
  have once {α : Type} (l : List α) : l.flatMap (List.replicate 1) = l := List.flatMap_singleton' l
  rw [pixels_enlarged, once]
  exact (List.map_congr_left fun row _ => once row).trans (List.map_id b.rows)

/-- An image has as many rows of pixels as it is high. -/
theorem length_pixels (b : Bitmap) (scale : Nat) :
    (b.enlarged scale).pixels.length = (b.enlarged scale).height := by
  rw [pixels_enlarged, List.length_map, length_blocks fun _ _ => List.length_replicate]
  rfl

/-- Every row of pixels is as long as the image is wide. -/
theorem Rectangular.length_of_mem_pixels (rectangular : b.Rectangular) (scale : Nat) :
    ∀ row ∈ (b.enlarged scale).pixels, row.length = (b.enlarged scale).width := by
  rw [pixels_enlarged]
  refine List.forall_mem_map.mpr fun row listed => ?_
  obtain ⟨dots, member, repeated⟩ := List.mem_flatMap.mp listed
  rw [List.eq_of_mem_replicate repeated, length_blocks fun _ _ => List.length_replicate,
    rectangular dots member]
  rfl

/-- **A pixel shows the dot of its square.** -/
theorem Rectangular.level?_enlarged (rectangular : b.Rectangular)
    (column : x < b.width * scale) (row : y < b.rows.length * scale) :
    (b.enlarged scale).level? x y =
      some (if b.lit (y / scale) (x / scale) then 255 else 0) := by
  have positive : 0 < scale := Nat.pos_of_mul_pos_left (Nat.zero_lt_of_lt column)
  have inRow : y / scale < b.rows.length := Nat.div_lt_of_lt_mul (Nat.mul_comm .. ▸ row)
  have inColumn : x / scale < b.width := Nat.div_lt_of_lt_mul (Nat.mul_comm .. ▸ column)
  have here : b.rows[y / scale]? = some b.rows[y / scale] := List.getElem?_eq_getElem inRow
  rw [Image.level?, pixels_enlarged, List.getElem?_map,
    getElem?_flatMap_replicate b.rows positive, here, Option.map_some, Option.bind_some,
    getElem?_flatMap_replicate _ positive, rectangular.getElem?_row here inColumn, Option.map_some]
  rfl

/-- **One pixel of each square is enough**, whichever it is. -/
theorem Rectangular.sample_enlarged (rectangular : b.Rectangular) (positive : 1 ≤ scale)
    {pick : Nat → Nat → Nat × Nat} (inside : ∀ r c, (pick r c).1 < scale ∧ (pick r c).2 < scale) :
    (b.enlarged scale).sample scale pick = b.rows := by
  have place {k n i : Nat} (within : k < n) (offset : i < scale) :
      k * scale + i < n * scale ∧ (k * scale + i) / scale = k := by
    have next : (k + 1) * scale ≤ n * scale := Nat.mul_le_mul_right scale within
    rw [Nat.succ_mul] at next
    refine ⟨by omega, ?_⟩
    rw [Nat.mul_comm, Nat.mul_add_div positive, Nat.div_eq_of_lt offset, Nat.add_zero]
  have width : (b.enlarged scale).width / scale = b.width := Nat.mul_div_cancel _ positive
  have height : (b.enlarged scale).height / scale = b.rows.length := Nat.mul_div_cancel _ positive
  rw [Image.sample, width, height]
  conv => rhs; rw [rectangular.rows_eq]
  refine List.map_congr_left fun r row => List.map_congr_left fun c column => ?_
  obtain ⟨low, sameRow⟩ := place (List.mem_range.mp row) (inside r c).2
  obtain ⟨narrow, sameColumn⟩ := place (List.mem_range.mp column) (inside r c).1
  rw [rectangular.level?_enlarged narrow low, sameRow, sameColumn]
  cases b.lit r c <;> rfl

/-! ## Both pictures -/

/-- **Both pictures of a bitmap show its dots, and each leads back to it.** Split at the line feeds,
the text has a line for each row and two characters for each dot, both full blocks if the dot is on
and both blanks if it is off. Reading the text gives the rows of the bitmap. At a scale of one or
more there is an image, and below one there is none. It has so many pixels for each column and row,
at scale one the dots themselves, and a pixel is white exactly if the dot is on whose place is that
of the pixel divided by the scale; so it stands in the data of a file. Reading one pixel of each
square, whichever that is, gives the rows of the bitmap too. -/
theorem pictures_lossless {b : Bitmap} (rectangular : b.Rectangular) (tall : 0 < b.rows.length) :
    let lines := textLines b.text
    (lines.length = b.rows.length ∧ (∀ line ∈ lines, line.length = 2 * b.width) ∧
        ∀ r c, r < b.rows.length → c < b.width →
          let shown := some (if b.lit r c then '█' else ' ')
          lines[r]?.bind (·[2 * c]?) = shown ∧ lines[r]?.bind (·[2 * c + 1]?) = shown) ∧
      readText b.text = b.rows ∧
      (∀ scale : Nat, 1 ≤ scale → ∃ m : Image, b.image? scale = .ok m ∧
        (m.width = b.width * scale ∧ m.height = b.rows.length * scale) ∧
        (m.pixels.length = m.height ∧ (∀ row ∈ m.pixels, row.length = m.width) ∧
          (scale = 1 → m.pixels = b.rows)) ∧
        (∀ x y, x < m.width → y < m.height →
          m.level? x y = some (if b.lit (y / scale) (x / scale) then 255 else 0) ∧
            (Image.Png.scanlines m)[y * (m.width + 1) + (x + 1)]? = m.level? x y) ∧
        ∀ pick : Nat → Nat → Nat × Nat,
          (∀ r c, (pick r c).1 < scale ∧ (pick r c).2 < scale) →
            m.sample scale pick = b.rows ∧ m.sample scale pick = readText b.text) ∧
      ∀ scale : Int, b.image? scale = .error ⟨scale⟩ ↔ scale < 1 := by
  intro lines
  have split : lines = b.rows.map (·.flatMap glyph) := textLines_text tall
  refine ⟨⟨?_, ?_, ?_⟩, readText_text tall, ?_, fun _ => image?_error_iff⟩
  · rw [split, List.length_map]
  · rw [split]
    refine List.forall_mem_map.mpr fun row listed => ?_
    rw [length_blocks fun on _ => length_glyph on, rectangular row listed, Nat.mul_comm]
  · exact fun r c row column => ⟨rectangular.getElem?_textLines row column Nat.two_pos,
      rectangular.getElem?_textLines row column Nat.one_lt_two⟩
  · intro scale positive
    have straight := rectangular.length_of_mem_pixels scale
    refine ⟨b.enlarged scale, image?_of_pos positive, ⟨rfl, rfl⟩,
      ⟨b.length_pixels scale, straight, ?_⟩, ?_, ?_⟩
    · rintro rfl
      exact b.pixels_enlarged_one
    · exact fun x y column row =>
        ⟨rectangular.level?_enlarged column row, Image.getElem?_scanlines straight column⟩
    · intro pick inside
      have sampled := rectangular.sample_enlarged positive inside
      exact ⟨sampled, sampled.trans (readText_text tall).symm⟩

/-- The display on which only the last cell is on. -/
def lastCell : Display :=
  Display.blank.flip ⟨31, 63⟩

theorem pictures_lossless_lastCell :
    let b := lastCell.bitmap
    b.Rectangular ∧ 0 < b.rows.length ∧
      ((textLines b.text).length = 32 ∧ (textLines b.text)[31]?.bind (·[127]?) = some '█' ∧
        (textLines b.text)[31]?.bind (·[125]?) = some ' ') ∧
      readText b.text = b.rows ∧
      (∃ m : Image, b.image? 3 = .ok m ∧ m.width = 192 ∧ m.height = 96 ∧
        m.level? 189 95 = some 255 ∧ m.level? 188 95 = some 0 ∧
        m.sample 3 (fun r c => ((r + c) % 3, 2)) = b.rows) ∧
      b.image? 0 = .error ⟨0⟩ := by
  intro b
  have rectangular : b.Rectangular := lastCell.rectangular_bitmap
  have height : b.rows.length = 32 := lastCell.length_bitmap
  have tall : 0 < b.rows.length := height ▸ Nat.zero_lt_succ 31
  have last : b.lit 31 63 = true := by decide +kernel
  have other : b.lit 31 62 = false := by decide +kernel
  obtain ⟨⟨lines, -, characters⟩, read, images, refused⟩ := pictures_lossless rectangular tall
  obtain ⟨m, made, ⟨width, high⟩, -, levels, sampled⟩ := images 3 (by decide)
  have full := (characters 31 63 (height ▸ by decide) (by decide)).2
  have blank := (characters 31 62 (height ▸ by decide) (by decide)).2
  rw [height] at high
  have corner := (levels 189 95 (width ▸ by decide) (high ▸ by decide)).1
  have beside := (levels 188 95 (width ▸ by decide) (high ▸ by decide)).1
  rw [last] at full corner
  rw [other] at blank beside
  refine ⟨rectangular, tall, ⟨lines.trans height, full, blank⟩, read,
    ⟨m, made, width, high, corner, beside, ?_⟩, (refused 0).mpr (by decide)⟩
  exact (sampled _ fun r c => ⟨Nat.mod_lt _ (by decide), Nat.lt_succ_self 2⟩).1

end Bitmap

end Cosmac
