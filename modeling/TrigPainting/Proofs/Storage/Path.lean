import TrigPainting.Storage.Save

/-!
# Paths that are extended by names

The paths that pictures are saved to are extended by names without a slash. Such a name is
the last step of the path, whatever the path it extends looks like, and the path neither
becomes absolute by it nor can it only name a directory.

## Main definitions

- `IsName` — a text that leads one step down
- `directoryName` — the name of the directory of an index

## Main statements

- `Path.steps_join` — a name is one step more
- `isName_directoryName`, `isName_imageName`, `isName_detailsName` — the names of a picture
- `directoryName_injective` — different indices have different directories
-/

namespace TrigPainting

namespace Storage

/-- A text without a slash that does not start with a point: as a part of a path it leads
to the entry of that name. -/
structure IsName (name : String) : Prop where
  noSlash : '/' ∉ name.toList
  start : ∃ c rest, name.toList = c :: rest ∧ c ≠ '.'

theorem IsName.ofName? {name : String} (h : IsName name) :
    Step.ofName? name.toList = some (.down name) := by
  obtain ⟨c, rest, hname, hc⟩ := h.start
  have hsame : String.ofList (c :: rest) = name := by rw [← hname, String.ofList_toList]
  rw [hname, Step.ofName?]
  · rw [hsame]
  · simp
  · simp [hc]
  · simp [hc]

namespace Path

variable {path : Path} {name : String}

/-- A path that is extended by a name is the name alone, or has a slash in front of it. -/
theorem join_cases (path : Path) (name : String) :
    (path.text.toList = [] ∧ (path.join name).text.toList = name.toList) ∨
      ∃ front, (path.join name).text.toList = front ++ '/' :: name.toList ∧
        (path.text.toList = front ∧ front ≠ [] ∨ path.text.toList = front ++ ['/']) := by
  cases hlast : path.text.toList.getLast? with
  | none =>
    left
    refine ⟨List.getLast?_eq_none_iff.mp hlast, ?_⟩
    rw [join, hlast]
  | some c =>
    right
    obtain ⟨front, hfront⟩ := List.getLast?_eq_some_iff.mp hlast
    by_cases hc : c = '/'
    · refine ⟨front, ?_, .inr (by rw [hfront, hc])⟩
      rw [join, hlast]
      simp [hc, hfront, String.toList_append]
    · have hne : path.text.toList ≠ [] := by simp [hfront]
      refine ⟨path.text.toList, ?_, .inl ⟨rfl, hne⟩⟩
      rw [join, hlast]
      simp [hc, String.toList_append]

theorem steps_join (h : IsName name) : (path.join name).steps = path.steps ++ [.down name] := by
  have hname : (Text.splitAt '/' name.toList).filterMap Step.ofName? = [.down name] := by
    rw [Text.splitAt_eq_singleton h.noSlash]
    simp [h.ofName?]
  rcases join_cases path name with ⟨hempty, hjoin⟩ | ⟨front, hjoin, ⟨hfront, -⟩ | hfront⟩
  · rw [steps, steps, hjoin, hempty, hname]
    rfl
  · rw [steps, steps, hjoin, hfront, Text.splitAt_append, List.filterMap_append, hname]
  · have hslash : (Text.splitAt '/' []).filterMap Step.ofName? = [] := rfl
    rw [steps, steps, hjoin, hfront, Text.splitAt_append, Text.splitAt_append,
      List.filterMap_append, List.filterMap_append, hname, hslash, List.append_nil]

theorem isAbsolute_join (h : IsName name) : (path.join name).isAbsolute = path.isAbsolute := by
  obtain ⟨c, rest, hname, -⟩ := h.start
  have hc : c ≠ '/' := by
    rintro rfl
    exact h.noSlash (hname ▸ List.mem_cons_self ..)
  rcases join_cases path name with ⟨hempty, hjoin⟩ | ⟨front, hjoin, ⟨hfront, hne⟩ | hfront⟩
  · simp [isAbsolute, hjoin, hempty, hname, hc]
  · obtain ⟨first, others, rfl⟩ := List.exists_cons_of_ne_nil hne
    rw [isAbsolute, isAbsolute, hjoin, hfront]
    rfl
  · rw [isAbsolute, isAbsolute, hjoin, hfront]
    cases front <;> rfl

theorem endsInDirectory_join (h : IsName name) : (path.join name).endsInDirectory = false := by
  obtain ⟨c, rest, hname, hc⟩ := h.start
  have hlast : ∃ before, (Text.splitAt '/' (path.join name).text.toList).reverse =
      (c :: rest) :: before := by
    have hsplit := Text.splitAt_eq_singleton h.noSlash
    rcases join_cases path name with ⟨-, hjoin⟩ | ⟨front, hjoin, -⟩
    · exact ⟨[], by rw [hjoin, hsplit, hname]; rfl⟩
    · exact ⟨_, by rw [hjoin, Text.splitAt_append, hsplit, hname, List.reverse_append]; rfl⟩
  obtain ⟨before, hlast⟩ := hlast
  rw [endsInDirectory, hlast]
  split
  · rename_i heq
    simp at heq
  · rename_i heq
    exact absurd (List.cons.inj (List.cons.inj heq).1).1 hc
  · rfl

end Path

-- ════════════════════════════════════════════════════════════════════════
-- The names of a picture
-- ════════════════════════════════════════════════════════════════════════

/-- The name of the directory of an index. -/
def directoryName (index : Nat) : String :=
  "generated_image_" ++ Decimal.naturalText index

theorem imageDirectory_eq (out : Path) (index : Nat) :
    imageDirectory out index = out.join (directoryName index) := rfl

theorem isName_imageName : IsName imageName :=
  ⟨by decide, _, _, rfl, by decide⟩

theorem slash_ne_digitChar (d : Nat) : '/' ≠ d.digitChar :=
  (Nat.digitChar_ne '/' rfl).symm

/-- A character that stands for no digit is in no numeral. -/
theorem not_mem_toDigits {base : Nat} (hbase : 1 < base) {c : Char}
    (hdigit : ∀ d : Nat, c ≠ d.digitChar) (n : Nat) : c ∉ Nat.toDigits base n := by
  induction n using Nat.strongRecOn with
  | ind n ih =>
    rw [Nat.toDigits_eq_if hbase]
    split
    · rw [List.mem_singleton]
      exact hdigit n
    · rename_i hle
      have hrest := ih (n / base) (Nat.div_lt_self (by omega) hbase)
      rw [List.mem_append, List.mem_singleton, not_or]
      exact ⟨hrest, hdigit (n % base)⟩

theorem toList_directoryName (index : Nat) :
    (directoryName index).toList = "generated_image_".toList ++ Decimal.digitChars index := by
  have hdigits : (Decimal.naturalText index).toList = Decimal.digitChars index :=
    String.toList_ofList
  exact String.toList_append.trans (congrArg (_ ++ ·) hdigits)

theorem toList_detailsName (p : Palette) :
    (detailsName p).toList = "details_".toList ++ p.tag.toList ++ ".txt".toList := by
  rw [detailsName, String.toList_append, String.toList_append]

theorem isName_directoryName (index : Nat) : IsName (directoryName index) := by
  have hdigits : '/' ∉ Decimal.digitChars index :=
    not_mem_toDigits (by decide) slash_ne_digitChar index
  refine ⟨?_, 'g', "enerated_image_".toList ++ Decimal.digitChars index, ?_, by decide⟩
  · rw [toList_directoryName, List.mem_append, not_or]
    exact ⟨by decide, hdigits⟩
  · rw [toList_directoryName]
    rfl

theorem directoryName_injective {i j : Nat} (h : directoryName i = directoryName j) : i = j := by
  have htexts := congrArg String.toList h
  rw [toList_directoryName, toList_directoryName, List.append_cancel_left_eq] at htexts
  have hnumbers := congrArg (fun digits => Nat.ofDigitChars 10 digits 0) htexts
  simpa only [Decimal.digitChars, Nat.ofDigitChars_ten_toDigits] using hnumbers

theorem slash_not_mem_tag (p : Palette) : '/' ∉ p.tag.toList := by
  have hnumeral : '/' ∉ numeral (hash p.tagText) :=
    not_mem_toDigits (by decide) slash_ne_digitChar _
  rw [Palette.tag_eq, String.toList_ofList, fingerprint]
  split
  · exact List.not_mem_nil
  · intro hmem
    have hcycle := List.mem_of_mem_take hmem
    simp only [repeated, List.mem_flatten, List.mem_replicate] at hcycle
    obtain ⟨chars, ⟨-, rfl⟩, hslash⟩ := hcycle
    exact hnumeral hslash

theorem isName_detailsName (p : Palette) : IsName (detailsName p) := by
  refine ⟨?_, 'd', "etails_".toList ++ p.tag.toList ++ ".txt".toList, ?_, by decide⟩
  · rw [toList_detailsName, List.mem_append, List.mem_append, not_or, not_or]
    exact ⟨⟨by decide, slash_not_mem_tag p⟩, by decide⟩
  · rw [toList_detailsName]
    rfl

theorem detailsName_ne_imageName (p : Palette) : detailsName p ≠ imageName := by
  intro h
  have hstart : (detailsName p).toList.head? = imageName.toList.head? := by rw [h]
  rw [toList_detailsName] at hstart
  exact absurd hstart (by simp [imageName])

end Storage

end TrigPainting
