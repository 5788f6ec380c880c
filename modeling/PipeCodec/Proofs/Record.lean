import PipeCodec.Proofs.Layout.Encoding

/-!
# Records and their layouts

A record type writes and reads its fields by a list of its own.  It is lawful if that list is the
one its layout states: same values in the same order under the same names.  For a lawful type,
encoding and decoding are those of the layout, seen through the labelled form of a record.
-/

set_option autoImplicit false

namespace PipeCodec

class LawfulRecord (α : Type) [Record α] : Prop where
  plain_tag : Wire.delimiter ∉ Utf8.encode (Record.tag α)
  entries_fields : ∀ record : α, (Record.entries record).map Field.ofEntry = Record.fields α
  entries_injective : ∀ left right : α, Record.entries left = Record.entries right → left = right
  write_eq : ∀ record : α, Record.write record = Layout.writeValues (Record.entries record)
  read_eq : ∀ cursor : Cursor,
    Record.entries <$> (Record.read : Reading α).result cursor =
      (Layout.readValues (Record.fields α)).result cursor

namespace Record

variable {α : Type} [Record α]

def toLabelled (record : α) : LabelledMessage :=
  ⟨tag α, entries record⟩

variable (α) in
def layout : Layout :=
  ⟨tag α, fields α⟩

theorem eq_layout_of_describes {layout : Layout} (described : layout.describes α = true) :
    layout = Record.layout α := by
  obtain ⟨name, fields⟩ := layout
  simpa [Layout.describes, Record.layout] using described

variable [LawfulRecord α]

theorem layout_toLabelled (record : α) : (toLabelled record).layout = layout α := by
  rw [LabelledMessage.layout, toLabelled, LawfulRecord.entries_fields]
  rfl

theorem toLabelled_injective {left right : α} (same : toLabelled left = toLabelled right) :
    left = right :=
  LawfulRecord.entries_injective left right (congrArg LabelledMessage.values same)

theorem encode_eq_sealed (settings : Settings) (record : α) :
    encode settings record = (toLabelled record).sealed settings.capacity := by
  rw [encode, LawfulRecord.write_eq]
  exact Layout.finish_writeValues (toLabelled record) settings.capacity

theorem toLabelled_decode (settings : Settings) (bytes : Bytes) :
    toLabelled <$> decode α settings bytes = (layout α).decode settings bytes := by
  simp only [decode, Layout.decode, layout]
  cases Cursor.enter bytes (tag α) settings.integers with
  | error cause => rfl
  | ok cursor =>
    have read := LawfulRecord.read_eq (α := α) cursor
    simp only [← read, bind, Except.bind]
    cases (Record.read : Reading α).result cursor with
    | error cause => rfl
    | ok record => rfl

/-- A record whose wire form is accepted is read back with empty texts for missing ones, whatever
stands behind it. -/
theorem decode_of_encode {writing reading : Settings} {record normal : α} {bytes : Bytes}
    (rest : Bytes) (normalized : toLabelled normal = (toLabelled record).normalize)
    (encoded : encode writing record = .ok bytes) :
    decode α reading (bytes ++ rest) = .ok normal := by
  rw [encode_eq_sealed] at encoded
  obtain ⟨rfl, free⟩ := LabelledMessage.sealed_eq_ok encoded
  have decoded := Layout.decode_wire (toLabelled record) reading rest LawfulRecord.plain_tag free
  rw [layout_toLabelled, ← toLabelled_decode, ← normalized] at decoded
  -- The layout speaks of labelled values only, but these determine the record.
  cases outcome : decode α reading ((toLabelled record).wire ++ rest) with
  | error cause =>
    rw [outcome] at decoded
    cases decoded
  | ok found =>
    rw [outcome] at decoded
    rw [toLabelled_injective (Except.ok.inj decoded)]

end Record

/-! ## The built-in records -/

instance : LawfulRecord Login where
  plain_tag := by decide +kernel
  entries_fields _ := rfl
  entries_injective := by
    rintro ⟨username, password⟩ ⟨username', password'⟩ same
    simpa [Record.entries] using same
  write_eq _ := bind_congr fun _ => (bind_pure _).symm
  read_eq cursor := by
    simp [Record.read, Record.fields, Record.entries, Layout.readValues, Value.read]

instance : LawfulRecord Status where
  plain_tag := by decide +kernel
  entries_fields _ := rfl
  entries_injective := by
    rintro ⟨code, message⟩ ⟨code', message'⟩ same
    simpa [Record.entries] using same
  write_eq _ := bind_congr fun _ => (bind_pure _).symm
  read_eq cursor := by
    simp [Record.read, Record.fields, Record.entries, Layout.readValues, Value.read]

instance : LawfulRecord Packet where
  plain_tag := by decide +kernel
  entries_fields _ := rfl
  entries_injective := by
    rintro ⟨id, payload, size⟩ ⟨id', payload', size'⟩ same
    simpa [Record.entries] using same
  write_eq _ := bind_congr fun _ => bind_congr fun _ => (bind_pure _).symm
  read_eq cursor := by
    simp [Record.read, Record.fields, Record.entries, Layout.readValues, Value.read]

end PipeCodec
