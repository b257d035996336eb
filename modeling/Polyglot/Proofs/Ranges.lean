import Polyglot.Proofs.Forms

/-!
# Naturals in rows

Whatever the text is, a natural that is read into a row fits 64 bits (`Schema.fits_of_read`): every
step that fills a cell takes the natural from the reader of numbers, which keeps to the bound.
-/

set_option autoImplicit false

namespace Polyglot.Json

/-- A cell with a natural of 64 bits, or without one. -/
def Datum.Fits (cell : Option Datum) : Prop :=
  ∀ value, cell = some (.natural value) → value ≤ significandLimit

/-- A row whose naturals fit 64 bits. -/
def Row.Fits (row : Row) : Prop :=
  ∀ cell ∈ row, Datum.Fits cell

theorem Datum.fits_none : Fits none := nofun

theorem Datum.fits_of_ne {datum : Datum} (noNatural : ∀ value, datum ≠ .natural value) :
    Fits (some datum) :=
  fun value same => absurd (Option.some.inj same) (noNatural value)

/-! ## Values of fields -/

theorem fits_of_readTextValue {cursor there : Cursor} {datum : Datum}
    (read : readTextValue cursor = .ok (datum, there)) : Datum.Fits (some datum) := by
  simp only [readTextValue] at read
  split at read
  · cases read
  · split at read
    · obtain ⟨_, _, done⟩ := bind_eq_ok_iff.mp read
      cases done
      refine Datum.fits_of_ne fun value same => ?_
      cases same
    · obtain ⟨fault, failed⟩ :=
        wrongKind_eq_error (α := Datum × Cursor) "a string" cursor.skipSpace
      rw [failed] at read
      cases read

theorem fits_of_readNaturalValue {cursor there : Cursor} {datum : Datum}
    (read : readNaturalValue cursor = .ok (datum, there)) : Datum.Fits (some datum) := by
  simp only [readNaturalValue] at read
  split at read
  · cases read
  · split at read
    · obtain ⟨⟨number, behind⟩, taken, done⟩ := bind_eq_ok_iff.mp read
      cases number with
      | float negative magnitude => cases done
      | integer value =>
          have most := le_of_readNumber taken
          dsimp only at done
          split at done
          · cases done
            rintro _ ⟨⟩
            omega
          · cases done
    · obtain ⟨fault, failed⟩ := wrongKind_eq_error (α := Datum × Cursor) "u64" cursor.skipSpace
      rw [failed] at read
      cases read

theorem fits_of_readOptional {reader : Cursor → Except Fault (Datum × Cursor)}
    (fits : ∀ {cursor there datum}, reader cursor = .ok (datum, there) → Datum.Fits (some datum))
    {cursor there : Cursor} {datum : Datum}
    (read : readOptional reader cursor = .ok (datum, there)) : Datum.Fits (some datum) := by
  simp only [readOptional] at read
  split at read
  · obtain ⟨_, _, done⟩ := bind_eq_ok_iff.mp read
    cases done
    refine Datum.fits_of_ne fun value same => ?_
    cases same
  · exact fits read

/-- A field is filled with a natural of 64 bits, or with none. -/
theorem Shape.fits_of_read {shape : Shape} {cursor there : Cursor} {datum : Datum}
    (read : shape.read cursor = .ok (datum, there)) : Datum.Fits (some datum) := by
  cases shape with
  | text => exact fits_of_readTextValue read
  | optionalText => exact fits_of_readOptional fits_of_readTextValue read
  | optionalNatural => exact fits_of_readOptional fits_of_readNaturalValue read

/-! ## Rows -/

theorem Row.Fits.fill {row : Row} (fits : row.Fits) (name : String) {datum : Datum}
    (new : Datum.Fits (some datum)) (fields : List Field) :
    Row.Fits (Json.fill name datum fields row) := by
  induction fields generalizing row with
  | nil => exact fits
  | cons field fields ih =>
      cases row with
      | nil => exact fits
      | cons cell row =>
          obtain ⟨first, others⟩ := List.forall_mem_cons.mp fits
          rw [Json.fill]
          split
          · exact List.forall_mem_cons.mpr ⟨new, others⟩
          · exact List.forall_mem_cons.mpr ⟨first, ih others⟩

namespace Schema

variable {schema : Schema}

theorem fits_of_readElements {fields : List Field} {index : Nat} {held row : Row}
    {cursor there : Cursor} (fits : held.Fits)
    (read : schema.readElements fields index held cursor = .ok (.ok row, there)) : row.Fits := by
  induction fields generalizing index held cursor with
  | nil =>
      cases read
      exact fun cell member => fits cell (List.mem_reverse.mp member)
  | cons field fields ih =>
      obtain ⟨⟨more, start⟩, _, rest⟩ := bind_eq_ok_iff.mp read
      dsimp only at rest
      split at rest
      · obtain ⟨⟨datum, behind⟩, taken, others⟩ := bind_eq_ok_iff.mp rest
        exact ih (List.forall_mem_cons.mpr ⟨Shape.fits_of_read taken, fits⟩) others
      · split at rest
        · cases rest
        · exact ih (List.forall_mem_cons.mpr ⟨Datum.fits_none, fits⟩) rest

theorem fits_of_readMembers {fuel : Nat} {first : Bool} {held row : Row} {cursor there : Cursor}
    (fits : held.Fits) (read : schema.readMembers fuel first held cursor = .ok (.ok row, there)) :
    row.Fits := by
  induction fuel generalizing first held cursor with
  | zero =>
      cases read
      exact fits
  | succ fuel ih =>
      obtain ⟨⟨more, start⟩, _, rest⟩ := bind_eq_ok_iff.mp read
      dsimp only at rest
      split at rest
      · obtain ⟨⟨name, behind⟩, _, member⟩ := bind_eq_ok_iff.mp rest
        dsimp only at member
        split at member
        · obtain ⟨_, _, passed⟩ := bind_eq_ok_iff.mp member
          obtain ⟨_, _, others⟩ := bind_eq_ok_iff.mp passed
          exact ih fits others
        · split at member
          · cases member
          · obtain ⟨_, _, value⟩ := bind_eq_ok_iff.mp member
            obtain ⟨⟨datum, further⟩, taken, others⟩ := bind_eq_ok_iff.mp value
            exact ih (fits.fill name (Shape.fits_of_read taken) schema.fields) others
      · cases rest
        exact fits

/-- **A row that is read has no natural that does not fit 64 bits.** -/
theorem fits_of_read {text : Text.Bytes} {row : Row} (read : schema.read text = .ok row) :
    row.Fits := by
  obtain ⟨⟨whole, behind⟩, parts, ended⟩ := bind_eq_ok_iff.mp read
  obtain rfl : whole = row := by
    simp only [expectEnd] at ended
    split at ended
    · cases ended
    · exact Except.ok.inj ended
  have finished {outcome : Except Mismatch Row} {close : Except Fault Cursor × Cursor}
      (done : finish outcome close = .ok (whole, behind)) : outcome = .ok whole := by
    cases outcome with
    | error what => cases done
    | ok filled =>
        cases closed : close.1 with
        | error fault => simp [finish, closed, Except.map] at done
        | ok cursor => simp_all [finish, Except.map]
  simp only [readFrom] at parts
  split at parts
  · cases parts
  · split at parts
    · obtain ⟨⟨outcome, middle⟩, elements, done⟩ := bind_eq_ok_iff.mp parts
      obtain rfl := finished done
      exact fits_of_readElements (List.forall_mem_nil _) elements
    · split at parts
      · obtain ⟨⟨outcome, middle⟩, members, done⟩ := bind_eq_ok_iff.mp parts
        cases outcome with
        | error what => cases finished done
        | ok filled =>
            have empty : Row.Fits (schema.fields.map fun _ => none) := by
              intro cell member
              obtain ⟨_, _, rfl⟩ := List.mem_map.mp member
              exact Datum.fits_none
            have same := finished done
            simp only [Except.bind] at same
            split at same
            · cases same
            · obtain rfl := Except.ok.inj same
              exact fits_of_readMembers empty members
      · obtain ⟨fault, failed⟩ :=
          wrongKind_eq_error (α := Row × Cursor) schema.label (Cursor.start text).skipSpace
        rw [failed] at parts
        cases parts

end Schema

end Polyglot.Json
