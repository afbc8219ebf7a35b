import Mathlib.Data.List.Perm.Basic
import Mathlib.Logic.Function.Iterate
import TrigPainting.Picture.Raster

/-!
# Pictures do not depend on the order of their rows

Every write of a painting puts a byte where the picture of the palette has it. So no write
spoils another, a byte is right as soon as one write has come to it, and it remains to see
that the parts of the jobs cover the buffer. The parts do not overlap either, which is not
needed for the picture but says that each byte is written by one job alone.

## Main definitions

- `Palette.IsPicture` — a picture described pixel by pixel
- `Palette.Writes` — the bytes that a job writes
- `Fills` — work on a buffer that brings part of it in line with a given content

## Main statements

- `Part.chunks_mul`, `Canvas.rowJobs_eq` — how the buffer is cut
- `Fills.foldl` — work in steps, in any order
- `Palette.fills_paintRow` — what one job does
- `Palette.existsUnique_writes` — each byte is written by one job
- `Palette.paint_independent_of_order` — what is painted, in any order
-/

namespace TrigPainting

-- ════════════════════════════════════════════════════════════════════════
-- Cutting a buffer
-- ════════════════════════════════════════════════════════════════════════

namespace Part

instance : Membership Nat Part where
  mem part i := part.start ≤ i ∧ i < part.start + part.length

section

variable {size start length count k i : Nat}

theorem mem_mk_iff : i ∈ (⟨start, length⟩ : Part) ↔ start ≤ i ∧ i < start + length := Iff.rfl

theorem mem_chunk_iff (hsize : 0 < size) :
    i ∈ (⟨start + k * size, size⟩ : Part) ↔ start ≤ i ∧ (i - start) / size = k := by
  rw [mem_mk_iff, Nat.div_eq_iff hsize]
  omega

theorem mem_mul_iff_exists_chunk (hsize : 0 < size) :
    i ∈ (⟨start, count * size⟩ : Part) ↔
      ∃ k < count, i ∈ (⟨start + k * size, size⟩ : Part) := by
  have hall : i ∈ (⟨start, count * size⟩ : Part) ↔ start ≤ i ∧ (i - start) / size < count := by
    rw [mem_mk_iff, Nat.div_lt_iff_lt_mul hsize]
    omega
  rw [hall]
  simp only [mem_chunk_iff hsize]
  constructor
  · rintro ⟨hstart, hlt⟩
    exact ⟨_, hlt, hstart, rfl⟩
  · rintro ⟨k, hlt, hstart, rfl⟩
    exact ⟨hstart, hlt⟩

end

theorem chunks_mul {size : Nat} (hsize : 0 < size) (start count : Nat) :
    chunks size ⟨start, count * size⟩ =
      (List.range count).map fun k => ⟨start + k * size, size⟩ := by
  induction count generalizing start with
  | zero =>
    rw [chunks]
    simp
  | succ count ih =>
    have hlength : (count + 1) * size = size + count * size := by rw [Nat.succ_mul, Nat.add_comm]
    have hpos : 0 < (count + 1) * size := by omega
    have hfront : min size ((count + 1) * size) = size := by omega
    have hrest : (count + 1) * size - size = count * size := by omega
    rw [chunks, if_pos ⟨hsize, hpos⟩]
    simp only [hfront, hrest]
    rw [ih, List.range_succ_eq_map, List.map_cons, List.map_map]
    refine congrArg₂ List.cons (by simp) (List.map_congr_left fun k _ => ?_)
    have hstart : start + size + k * size = start + (k + 1) * size := by
      rw [Nat.succ_mul, Nat.add_assoc, Nat.add_comm size]
    simp only [Function.comp_apply, hstart]

theorem exactChunks_mul {size : Nat} (hsize : 0 < size) (start count : Nat) :
    exactChunks size ⟨start, count * size⟩ =
      (List.range count).map fun k => ⟨start + k * size, size⟩ := by
  rw [exactChunks, Nat.mul_mod_left, Nat.sub_zero, chunks_mul hsize]

end Part

namespace Canvas

theorem toNat_toUInt32_of_lt {size : UInt32} {k : Nat} (h : k < size.toNat) :
    k.toUInt32.toNat = k := by
  have hbound : size.toNat < UInt32.size := size.toNat_lt_size
  exact UInt32.toNat_ofNat_of_lt (by omega)

theorem mem_side {size pixel : UInt32} : pixel ∈ side size ↔ pixel < size := by
  rw [side, List.mem_map, UInt32.lt_iff_toNat_lt]
  constructor
  · rintro ⟨k, hk, rfl⟩
    rw [List.mem_range] at hk
    rwa [toNat_toUInt32_of_lt hk]
  · intro hlt
    exact ⟨pixel.toNat, List.mem_range.mpr hlt, UInt32.ofNat_toNat⟩

theorem exists_mem_side_iff {size : UInt32} {q : Nat → Prop} :
    (∃ pixel ∈ side size, q pixel.toNat) ↔ ∃ k < size.toNat, q k := by
  constructor
  · rintro ⟨pixel, hpixel, hq⟩
    exact ⟨pixel.toNat, UInt32.lt_iff_toNat_lt.mp (mem_side.mp hpixel), hq⟩
  · rintro ⟨k, hk, hq⟩
    refine ⟨k.toUInt32, List.mem_map.mpr ⟨k, List.mem_range.mpr hk, rfl⟩, ?_⟩
    rwa [toNat_toUInt32_of_lt hk]

theorem length_side (size : UInt32) : (side size).length = size.toNat := by
  simp [side]

theorem map_range_side {α : Type} (size : UInt32) (f : Nat → α) :
    (List.range size.toNat).map f = (side size).map fun pixel => f pixel.toNat := by
  rw [side, List.map_map]
  refine List.map_congr_left fun k hk => ?_
  rw [Function.comp_apply, toNat_toUInt32_of_lt (List.mem_range.mp hk)]

/-- The part of a buffer that belongs to a row. -/
def rowPart (c : Canvas) (row : UInt32) : Part :=
  ⟨row.toNat * (c.width.toNat * 3), c.width.toNat * 3⟩

variable {c : Canvas}

theorem width_ne_zero_of_check (h : c.check = .ok ()) : c.width ≠ 0 :=
  ((check_eq_ok_iff c).mp h).1

theorem rowLength_pos (hwidth : c.width ≠ 0) : 0 < c.width.toNat * 3 := by
  have hpos : 0 < c.width.toNat := UInt32.pos_iff_ne_zero.mpr hwidth
  omega

theorem bufferLength_eq (c : Canvas) : c.bufferLength = c.height.toNat * (c.width.toNat * 3) := by
  rw [bufferLength, Nat.mul_comm 3, Nat.mul_comm c.width.toNat, Nat.mul_assoc]

/-- **The jobs of a canvas**: one for each row, with as many bytes as its pixels take. -/
theorem rowJobs_eq (hwidth : c.width ≠ 0) :
    c.rowJobs = (side c.height).map fun row => ⟨c.rowPart row, row⟩ := by
  rw [rowJobs, bufferLength_eq, Part.chunks_mul (rowLength_pos hwidth), map_range_side,
    List.zipWith_map_left, List.zipWith_self]
  simp only [Nat.zero_add, rowPart]

theorem mem_rowJobs (hwidth : c.width ≠ 0) {job : RowJob} :
    job ∈ c.rowJobs ↔ job.row < c.height ∧ job.part = c.rowPart job.row := by
  rw [rowJobs_eq hwidth, List.mem_map]
  constructor
  · rintro ⟨row, hrow, rfl⟩
    exact ⟨mem_side.mp hrow, rfl⟩
  · rintro ⟨hrow, hpart⟩
    exact ⟨job.row, mem_side.mpr hrow, by rw [← hpart]⟩

theorem length_rowJobs (hwidth : c.width ≠ 0) : c.rowJobs.length = c.height.toNat := by
  rw [rowJobs_eq hwidth, List.length_map, length_side]

theorem mem_rowPart_iff (hwidth : c.width ≠ 0) {row : UInt32} {i : Nat} :
    i ∈ c.rowPart row ↔ i / (c.width.toNat * 3) = row.toNat := by
  have hchunk := @Part.mem_chunk_iff (c.width.toNat * 3) 0 row.toNat i (rowLength_pos hwidth)
  simp only [Nat.zero_add, Nat.zero_le, true_and, Nat.sub_zero] at hchunk
  exact hchunk

/-- The parts of the jobs cover the buffer. -/
theorem exists_job_iff (hwidth : c.width ≠ 0) {i : Nat} :
    (∃ job ∈ c.rowJobs, i ∈ job.part) ↔ i < c.bufferLength := by
  have hrow : i < c.bufferLength ↔ i / (c.width.toNat * 3) < c.height.toNat := by
    rw [bufferLength_eq, Nat.div_lt_iff_lt_mul (rowLength_pos hwidth)]
  rw [hrow, rowJobs_eq hwidth]
  simp only [List.mem_map, exists_exists_and_eq_and, mem_rowPart_iff hwidth]
  rw [exists_mem_side_iff (q := fun k => i / (c.width.toNat * 3) = k)]
  simp

/-- The parts of the jobs do not overlap. -/
theorem job_unique (hwidth : c.width ≠ 0) {job other : RowJob} {i : Nat}
    (hjob : job ∈ c.rowJobs) (hin : i ∈ job.part) (hother : other ∈ c.rowJobs)
    (hinOther : i ∈ other.part) : job = other := by
  rw [rowJobs_eq hwidth, List.mem_map] at hjob hother
  obtain ⟨row, -, rfl⟩ := hjob
  obtain ⟨row', -, rfl⟩ := hother
  rw [mem_rowPart_iff hwidth] at hin hinOther
  obtain rfl : row = row' := UInt32.toNat_inj.mp (hin.symm.trans hinOther)
  rfl

/-- The pixels of a row: one for each column, with three bytes. -/
theorem pixels_eq {job : RowJob} (hpart : job.part = c.rowPart job.row) :
    c.pixels job =
      (side c.width).map fun column => (⟨job.part.start + column.toNat * 3, 3⟩, column) := by
  rw [pixels, hpart, rowPart, Part.exactChunks_mul (by decide), map_range_side, List.zip,
    List.zipWith_map_left, List.zipWith_self]

theorem filterMap_getElem?_range {α : Type} (entries : List α) :
    (List.range entries.length).filterMap (fun number => entries[number]?) = entries := by
  induction entries with
  | nil => rfl
  | cons a rest ih =>
    rw [List.length_cons, List.range_succ_eq_map, List.filterMap_cons, List.filterMap_map]
    exact congrArg (a :: ·) ih

theorem jobsInOrder_perm {order : List Nat} (hwidth : c.width ≠ 0)
    (horder : order.Perm (List.range c.height.toNat)) : (c.jobsInOrder order).Perm c.rowJobs := by
  rw [← length_rowJobs hwidth] at horder
  have hperm := horder.filterMap fun number => c.rowJobs[number]?
  rw [filterMap_getElem?_range] at hperm
  simpa only [jobsInOrder, List.getElem?_toArray] using hperm

end Canvas

-- ════════════════════════════════════════════════════════════════════════
-- Filling in a buffer
-- ════════════════════════════════════════════════════════════════════════

/-- Work on a buffer that brings the bytes of a region in line with `content` and leaves
the other bytes as they are. -/
structure Fills (content : Nat → Option UInt8) (region : Nat → Prop)
    (work : Array UInt8 → Array UInt8) : Prop where
  size : ∀ bytes, (work bytes).size = bytes.size
  inside : ∀ bytes i, i < bytes.size → region i → (work bytes)[i]? = content i
  outside : ∀ bytes i, ¬ region i → (work bytes)[i]? = bytes[i]?

namespace Fills

variable {content : Nat → Option UInt8}

theorem nothing : Fills content (fun _ => False) id where
  size _ := rfl
  inside _ _ _ h := h.elim
  outside _ _ _ := rfl

theorem region_congr {region other : Nat → Prop} {work : Array UInt8 → Array UInt8}
    (h : Fills content region work) (hregion : ∀ i, other i ↔ region i) :
    Fills content other work := by
  obtain rfl : other = region := funext fun i => propext (hregion i)
  exact h

/-- Work after work fills in both regions: where they meet, the second puts what the first
has put. -/
theorem comp {first second : Nat → Prop} {f g : Array UInt8 → Array UInt8}
    (hf : Fills content first f) (hg : Fills content second g) :
    Fills content (fun i => first i ∨ second i) (fun bytes => g (f bytes)) where
  size bytes := by rw [hg.size, hf.size]
  inside bytes i hi hregion := by
    by_cases hsecond : second i
    · refine hg.inside (f bytes) i ?_ hsecond
      rwa [hf.size]
    · rw [hg.outside _ _ hsecond]
      exact hf.inside bytes i hi (hregion.resolve_right hsecond)
  outside bytes i hregion := by
    rw [hg.outside _ _ fun h => hregion (.inr h), hf.outside _ _ fun h => hregion (.inl h)]

/-- Work in steps fills in what any of the steps fills in. The order of the steps is not
part of the region. -/
theorem foldl {β : Type} {region : β → Nat → Prop} {step : Array UInt8 → β → Array UInt8}
    {steps : List β} (h : ∀ b ∈ steps, Fills content (region b) fun bytes => step bytes b) :
    Fills content (fun i => ∃ b ∈ steps, region b i) (fun bytes => steps.foldl step bytes) := by
  induction steps with
  | nil => exact nothing.region_congr (by simp)
  | cons b steps ih =>
    rw [List.forall_mem_cons] at h
    refine (h.1.comp (ih h.2)).region_congr fun i => ?_
    simp only [List.mem_cons, exists_eq_or_imp]

/-- What is filled in does not show how. -/
theorem eq_of_size {region : Nat → Prop} {f g : Array UInt8 → Array UInt8}
    {bytes : Array UInt8} (hf : Fills content region f) (hg : Fills content region g)
    (hsize : ∀ i < bytes.size, region i) : f bytes = g bytes := by
  refine Array.ext (by rw [hf.size, hg.size]) fun i hi hi' => ?_
  rw [← Option.some_inj, ← Array.getElem?_eq_getElem hi, ← Array.getElem?_eq_getElem hi']
  rw [hf.size] at hi
  rw [hf.inside bytes i hi (hsize i hi), hg.inside bytes i hi (hsize i hi)]

end Fills

-- ════════════════════════════════════════════════════════════════════════
-- The content of a picture
-- ════════════════════════════════════════════════════════════════════════

/-- The bytes of a color, in the order of the channels. -/
def Color.bytes (color : Color) : List UInt8 := [color.red, color.green, color.blue]

theorem Color.fills_writeTo {content : Nat → Option UInt8} {color : Color} {start : Nat}
    (h : ∀ k < 3, content (start + k) = color.bytes[k]?) :
    Fills content (fun i => start ≤ i ∧ i < start + 3) (color.writeTo start) where
  size bytes := by simp [writeTo]
  inside bytes i hi hregion := by
    obtain ⟨k, rfl⟩ := Nat.exists_eq_add_of_le hregion.1
    rw [h k (by omega)]
    simp only [writeTo, Array.getElem?_setIfInBounds, Array.size_setIfInBounds]
    have hk : k = 0 ∨ k = 1 ∨ k = 2 := by omega
    rcases hk with rfl | rfl | rfl
    · have hfirst : start = start + 0 := rfl
      rw [if_neg (by omega), if_neg (by omega), if_pos hfirst, if_pos (hfirst ▸ hi)]
      rfl
    · rw [if_neg (by omega), if_pos rfl, if_pos hi]
      rfl
    · rw [if_pos rfl, if_pos hi]
      rfl
  outside bytes i hregion := by
    simp only [writeTo, Array.getElem?_setIfInBounds]
    rw [if_neg (by omega), if_neg (by omega), if_neg (by omega)]

namespace Palette

variable {p : Palette} {c : Canvas}

/-- The byte with a number in the picture of a palette. -/
def byteAt (p : Palette) (c : Canvas) (i : Nat) : Option UInt8 :=
  let pixel := i / 3
  let color := p.colorAt c (pixel % c.width.toNat).toUInt32 (pixel / c.width.toNat).toUInt32
  color.bytes[i % 3]?

theorem byteAt_pixel {column : UInt32} (hcolumn : column < c.width) (row : UInt32) {k : Nat}
    (hk : k < 3) :
    p.byteAt c (3 * (row.toNat * c.width.toNat + column.toNat) + k) =
      (p.colorAt c column row).bytes[k]? := by
  have hlt : column.toNat < c.width.toNat := UInt32.lt_iff_toNat_lt.mp hcolumn
  have hpixel : (3 * (row.toNat * c.width.toNat + column.toNat) + k) / 3 =
      row.toNat * c.width.toNat + column.toNat := by omega
  have hchannel : (3 * (row.toNat * c.width.toNat + column.toNat) + k) % 3 = k := by omega
  have hcolumnOf : (row.toNat * c.width.toNat + column.toNat) % c.width.toNat = column.toNat := by
    rw [Nat.mul_add_mod', Nat.mod_eq_of_lt hlt]
  have hrowOf : (row.toNat * c.width.toNat + column.toNat) / c.width.toNat = row.toNat := by
    rw [Nat.mul_comm, Nat.mul_add_div (by omega), Nat.div_eq_of_lt hlt, Nat.add_zero]
  simp only [byteAt, hpixel, hchannel, hcolumnOf, hrowOf]
  simp only [Nat.toUInt32, UInt32.ofNat_toNat]

/-- **One job** fills in its part of the buffer. -/
theorem fills_paintRow {job : RowJob} (hpart : job.part = c.rowPart job.row) :
    Fills (p.byteAt c) (· ∈ job.part) (p.paintRow c job) := by
  have hpixels := c.pixels_eq hpart
  have hsteps : ∀ pixel ∈ c.pixels job,
      Fills (p.byteAt c) (· ∈ pixel.1)
        (fun bytes => (p.colorAt c pixel.2 job.row).writeTo pixel.1.start bytes) := by
    rw [hpixels]
    intro pixel hpixel
    obtain ⟨column, hcolumn, rfl⟩ := List.mem_map.mp hpixel
    refine Color.fills_writeTo fun k hk => ?_
    rw [← byteAt_pixel (Canvas.mem_side.mp hcolumn) job.row hk]
    have hplace : job.part.start + column.toNat * 3 + k =
        3 * (job.row.toNat * c.width.toNat + column.toNat) + k := by
      simp only [hpart, Canvas.rowPart, ← Nat.mul_assoc]
      omega
    rw [hplace]
  refine (Fills.foldl hsteps).region_congr fun i => ?_
  have hregion : i ∈ job.part ↔
      ∃ k < c.width.toNat, i ∈ (⟨job.part.start + k * 3, 3⟩ : Part) := by
    rw [hpart, Canvas.rowPart]
    exact Part.mem_mul_iff_exists_chunk (by decide)
  rw [hregion, ← Canvas.exists_mem_side_iff, hpixels]
  simp only [List.mem_map, exists_exists_and_eq_and]

theorem exists_byteAt (p : Palette) (c : Canvas) (i : Nat) : ∃ b, p.byteAt c i = some b := by
  have hlt : i % 3 < 3 := Nat.mod_lt i (by decide)
  exact ⟨_, List.getElem?_eq_getElem hlt⟩

/-- A job writes a byte if there is a buffer in which it changes it. -/
def Writes (p : Palette) (c : Canvas) (job : RowJob) (i : Nat) : Prop :=
  ∃ bytes, (p.paintRow c job bytes)[i]? ≠ bytes[i]?

theorem writes_iff {job : RowJob} (hpart : job.part = c.rowPart job.row) {i : Nat} :
    p.Writes c job i ↔ i ∈ job.part := by
  have hfills : Fills (p.byteAt c) (· ∈ job.part) (p.paintRow c job) := fills_paintRow hpart
  constructor
  · rintro ⟨bytes, hchanged⟩
    by_contra hout
    exact hchanged (hfills.outside bytes i hout)
  · intro hin
    -- A buffer that has another byte in this place.
    obtain ⟨b, hb⟩ := p.exists_byteAt c i
    refine ⟨Array.replicate (i + 1) (b + 1), ?_⟩
    rw [hfills.inside _ _ (by simp) hin, hb, Array.getElem?_replicate, if_pos (Nat.lt_succ_self i)]
    intro hsame
    have hnat : b.toNat = (b + 1).toNat := congrArg UInt8.toNat (Option.some.inj hsame)
    have hbound : b.toNat < 256 := b.toNat_lt
    rw [UInt8.toNat_add, UInt8.toNat_one] at hnat
    omega

-- ════════════════════════════════════════════════════════════════════════
-- Painting
-- ════════════════════════════════════════════════════════════════════════

/-- **All jobs** in any order fill in the buffer. -/
theorem fills_paintRows (hwidth : c.width ≠ 0) {jobs : List RowJob}
    (hjobs : jobs.Perm c.rowJobs) :
    Fills (p.byteAt c) (fun i => i < c.bufferLength)
      (fun bytes => jobs.foldl (fun bytes job => p.paintRow c job bytes) bytes) := by
  have hsteps : ∀ job ∈ jobs, Fills (p.byteAt c) (· ∈ job.part) (p.paintRow c job) := by
    intro job hjob
    rw [hjobs.mem_iff, Canvas.mem_rowJobs hwidth] at hjob
    exact fills_paintRow hjob.2
  refine (Fills.foldl hsteps).region_congr fun i => ?_
  rw [← Canvas.exists_job_iff hwidth]
  simp only [hjobs.mem_iff]

theorem existsUnique_writes (p : Palette) (hwidth : c.width ≠ 0) {i : Nat}
    (hi : i < c.bufferLength) : ∃! job, job ∈ c.rowJobs ∧ p.Writes c job i := by
  have hwrites : ∀ job ∈ c.rowJobs, (p.Writes c job i ↔ i ∈ job.part) := by
    intro job hjob
    exact writes_iff ((Canvas.mem_rowJobs hwidth).mp hjob).2
  obtain ⟨job, hjob, hin⟩ := (Canvas.exists_job_iff hwidth).mpr hi
  refine ⟨job, ⟨hjob, (hwrites job hjob).mpr hin⟩, ?_⟩
  rintro other ⟨hother, hinOther⟩
  exact Canvas.job_unique hwidth hother ((hwrites other hother).mp hinOther) hjob hin

theorem foldl_finishRow {σ : Type} (onRow : σ → σ) (jobs : List RowJob) (painting : Painting σ) :
    jobs.foldl (p.finishRow c onRow) painting =
      ⟨jobs.foldl (fun bytes job => p.paintRow c job bytes) painting.bytes,
        onRow^[jobs.length] painting.progress⟩ := by
  induction jobs generalizing painting with
  | nil => rfl
  | cons job jobs ih =>
    rw [List.foldl_cons, ih]
    rfl

/-- The picture of a palette, pixel by pixel. -/
structure IsPicture (p : Palette) (c : Canvas) (image : Image) : Prop where
  width : image.width = c.width
  height : image.height = c.height
  size : image.bytes.size = 3 * (c.width.toNat * c.height.toNat)
  color : ∀ column row, column < c.width → row < c.height → ∀ k < 3,
    image.bytes[3 * (row.toNat * c.width.toNat + column.toNat) + k]? =
      (p.colorAt c column row).bytes[k]?

theorem pixel_lt_bufferLength {column row : UInt32} (hcolumn : column < c.width)
    (hrow : row < c.height) {k : Nat} (hk : k < 3) :
    3 * (row.toNat * c.width.toNat + column.toNat) + k < c.bufferLength := by
  rw [UInt32.lt_iff_toNat_lt] at hcolumn hrow
  have hrows : (row.toNat + 1) * c.width.toNat ≤ c.height.toNat * c.width.toNat :=
    Nat.mul_le_mul_right _ hrow
  rw [Nat.succ_mul] at hrows
  rw [Canvas.bufferLength, Nat.mul_comm c.width.toNat]
  omega

/-- A buffer that is filled in is the picture, whatever it has held before. -/
theorem isPicture_of_fills {work : Array UInt8 → Array UInt8}
    (h : Fills (p.byteAt c) (fun i => i < c.bufferLength) work) {bytes : Array UInt8}
    (hsize : bytes.size = c.bufferLength) {image : Image} (hwidth : image.width = c.width)
    (hheight : image.height = c.height) (hbytes : image.bytes = work bytes) :
    p.IsPicture c image where
  width := hwidth
  height := hheight
  size := by rw [image.size_bytes, hwidth, hheight]
  color column row hcolumn hrow k hk := by
    have hlt := pixel_lt_bufferLength hcolumn hrow hk
    rw [← byteAt_pixel hcolumn row hk, hbytes]
    exact h.inside bytes _ (hsize ▸ hlt) hlt

/-- **Painting in any order** gives the picture, and calls `onRow` once for each row. -/
theorem paintRows_eq {σ : Type} (hwidth : c.width ≠ 0) {order : List Nat}
    (horder : order.Perm (List.range c.height.toNat)) (onRow : σ → σ) (progress : σ) :
    p.paintRows c onRow order progress =
      ⟨(p.picture c).bytes, onRow^[c.height.toNat] progress⟩ := by
  have hjobs := Canvas.jobsInOrder_perm hwidth horder
  have hfromTop := Canvas.jobsInOrder_perm hwidth (.refl (List.range c.height.toNat))
  have hcount : (c.jobsInOrder order).length = c.height.toNat := by
    rw [hjobs.length_eq, Canvas.length_rowJobs hwidth]
  rw [bytes_picture, paintRows, foldl_finishRow, hcount, paintRows, foldl_finishRow]
  refine congrArg (fun bytes => Painting.mk bytes _) ?_
  exact (fills_paintRows hwidth hjobs).eq_of_size (fills_paintRows hwidth hfromTop) (by simp)

theorem isPicture_picture (p : Palette) (hwidth : c.width ≠ 0) : p.IsPicture c (p.picture c) := by
  have hfromTop := Canvas.jobsInOrder_perm hwidth (.refl (List.range c.height.toNat))
  have hsize : (Array.replicate c.bufferLength (0 : UInt8)).size = c.bufferLength :=
    Array.size_replicate
  refine isPicture_of_fills (fills_paintRows hwidth hfromTop) hsize rfl rfl ?_
  rw [bytes_picture, paintRows, foldl_finishRow]

/-- **Pictures do not depend on the order of their rows**: on a canvas that can be used, the
rows come to the same picture in every order, each byte is the work of one row, and `onRow`
is called once for each row. On another canvas nothing is painted and `onRow` is not called. -/
theorem paint_independent_of_order (p : Palette) (c : Canvas) {σ : Type} (onRow : σ → σ)
    (progress : σ) {order : List Nat} (horder : order.Perm (List.range c.height.toNat)) :
    (c.check = .ok () →
      p.paintWithProgress c onRow order progress =
          (.ok (p.picture c), onRow^[c.height.toNat] progress) ∧
        p.paint c = .ok (p.picture c) ∧ p.IsPicture c (p.picture c) ∧
        ∀ i < 3 * (c.width.toNat * c.height.toNat), ∃! job, job ∈ c.rowJobs ∧ p.Writes c job i) ∧
      ∀ cause, c.check = .error cause →
        p.paintWithProgress c onRow order progress = (.error (.config cause), progress) ∧
          p.paint c = .error (.config cause) := by
  constructor
  · intro hcheck
    have hwidth : c.width ≠ 0 := Canvas.width_ne_zero_of_check hcheck
    refine ⟨?_, ?_, p.isPicture_picture hwidth, fun i hi => p.existsUnique_writes hwidth hi⟩
    · rw [paintWithProgress, hcheck]
      simp only [paintRows_eq hwidth horder]
      rfl
    · rw [paint, paintWithProgress, hcheck]
      rfl
  · intro cause hcheck
    refine ⟨?_, ?_⟩
    · rw [paintWithProgress, hcheck]
    · rw [paint, paintWithProgress, hcheck]

theorem paint_bottom_row_first :
    let p : Palette := ⟨.coord .x, .wave .sine (.coord .y), .pi⟩
    let c : Canvas := ⟨3, 2, 4⟩
    let rejected : Canvas := ⟨3, 2, 0⟩
    [1, 0].Perm (List.range 2) ∧ c.check = .ok () ∧ rejected.check = .error .zeroScale ∧
      (p.paintWithProgress c (· + 1) [1, 0] 0 = (.ok (p.picture c), 2) ∧
        p.paint c = .ok (p.picture c) ∧ p.IsPicture c (p.picture c) ∧
        ∀ i < 18, ∃! job, job ∈ c.rowJobs ∧ p.Writes c job i) ∧
      p.paintWithProgress rejected (· + 1) [1, 0] 0 = (.error (.config .zeroScale), 0) ∧
        p.paint rejected = .error (.config .zeroScale) := by
  intro p c rejected
  have horder : [1, 0].Perm (List.range 2) := by decide
  have hcheck : c.check = .ok () := rfl
  have hrejected : rejected.check = .error .zeroScale := rfl
  exact ⟨horder, hcheck, hrejected,
    (paint_independent_of_order p c (· + 1) 0 horder).1 hcheck,
    (paint_independent_of_order p rejected (· + 1) 0 horder).2 _ hrejected⟩

end Palette

end TrigPainting
