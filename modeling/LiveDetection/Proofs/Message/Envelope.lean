import LiveDetection.Message.Envelope
import LiveDetection.Proofs.Archive.RoundTrip

/-!
# Envelopes read back

How a property value lies in an archive, and that property values, messages and envelopes are
lawful. So an envelope is read back from its archive with its properties in order, names that
occur twice included, and with an empty body told from no body.
-/

namespace LiveDetection

open Archive
open Archive.Reader
open Layout (LiesAt)

/-- A byte says of which type the value is. -/
instance : Layout PropertyValue where
  LiesAt bytes position value blocks :=
    match value with
    | .string text => bytes[position]? = some 0 ∧ LiesAt bytes (position + valueGap) text blocks
    | .int n => bytes[position]? = some 1 ∧ LiesAt bytes (position + valueGap) n blocks
    | .long n => bytes[position]? = some 2 ∧ LiesAt bytes (position + 2 * valueGap) n blocks

instance : LawfulArchived PropertyValue where
  size_pos := by decide
  align_pos := by decide
  length_image := by
    intro value anchor position part h
    cases value with
    | string text =>
      obtain ⟨image, himage, rfl⟩ := Option.map_eq_some_iff.mp h
      have hlength : image.length = 8 := LawfulArchived.length_image himage
      simp only [List.length_append, List.length_cons, List.length_replicate, hlength]
      rfl
    | int n => cases h; rfl
    | long n => cases h; rfl
  prefix_store := by
    intro value written stored anchor h
    cases value with
    | string text => exact @LawfulArchived.prefix_store String _ _ _ _ _ _ _ h
    | int n => cases h; exact List.prefix_refl _
    | long n => cases h; exact List.prefix_refl _
  liesAt := by
    intro bytes position value written stored anchor h
    obtain ⟨part, himage, hholds⟩ := h.image
    cases value with
    | string text =>
      obtain ⟨image, hone, rfl⟩ := Option.map_eq_some_iff.mp himage
      have hlocated : Located bytes (position + valueGap) text written stored anchor :=
        ⟨h.store, ⟨image, hone, hholds.left.right⟩, h.kept,
          h.behind.trans (Nat.le_add_right _ _)⟩
      obtain ⟨blocks, hlies, hstacked⟩ := LawfulArchived.liesAt hlocated
      exact ⟨blocks, ⟨hholds.left.left.head, hlies⟩, hstacked⟩
    | int n =>
      cases h.store
      cases himage
      exact ⟨[], ⟨hholds.left.left.head, hholds.left.right, rfl⟩, le_refl _⟩
    | long n =>
      cases h.store
      cases himage
      exact ⟨[], ⟨hholds.left.head, hholds.right, rfl⟩, le_refl _⟩
  readsBack := by
    intro bytes free position limit value blocks h hstacked hlimit
    cases value with
    | string text =>
      exact .byteAt h.1 ((LawfulArchived.readsBack h.2 hstacked hlimit).map PropertyValue.string)
    | int n =>
      exact .byteAt h.1 ((LawfulArchived.readsBack h.2 hstacked hlimit).map PropertyValue.int)
    | long n =>
      exact .byteAt h.1 ((LawfulArchived.readsBack h.2 hstacked hlimit).map PropertyValue.long)

instance : Layout Property := Layout.via fun p => (p.name, p.value)
instance : Layout Message := Layout.via fun m => (m.properties, m.body)
instance : Layout Envelope := Layout.via fun e => (e.queue, e.message)

instance : LawfulArchived Property := LawfulArchived.via _ _ fun _ => rfl
instance : LawfulArchived Message := LawfulArchived.via _ _ fun _ => rfl
instance : LawfulArchived Envelope := LawfulArchived.via _ _ fun _ => rfl

end LiveDetection
