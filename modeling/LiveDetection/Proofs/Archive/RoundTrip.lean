import LiveDetection.Proofs.Archive.Layout

/-!
# Archives read back

An archived type is lawful when two things hold. A value that was stored, with its image
behind what was stored, lies in the bytes as the layout of its type says. And a value that
lies in the bytes, with its blocks in the free range, is read from there, and what lies behind
its blocks stays free. Words and texts are lawful, and so are lists, pairs, optional values and
views of lawful types. So an archive of a lawful type is laid out as its type says, and
whatever is laid out so is read as the value.
-/

namespace LiveDetection.Archive

open Reader
open Layout (LiesAt)

variable {α β : Type}

/-- A value was stored behind what was written before, and its image stands at a later position
of the archive. -/
structure Located [Archived α] (bytes : Array UInt8) (position : Nat) (a : α)
    (written stored : Array UInt8) (anchor : Archived.Anchor α) : Prop where
  store : Archived.store a written = some (anchor, stored)
  image : ∃ part, Archived.image a anchor position = some part ∧ Holds bytes position part
  kept : stored.toList <+: bytes.toList
  behind : stored.size ≤ position

/-- A reader gives a value and takes no free bytes from a limit on. -/
def ReadsBack (r : Reader α) (bytes : Array UInt8) (free : FreeRange) (a : α) (limit : Nat) :
    Prop :=
  ∃ low ≤ limit, r bytes free = some (a, ⟨low, free.high⟩)

namespace ReadsBack

variable {r : Reader α} {bytes : Array UInt8} {free : FreeRange} {a : α} {limit : Nat}

/-- What is read on is read with what the first reader left free. -/
theorem bind {f : α → Reader β} {b : β} {middle : Nat} (h : ReadsBack r bytes free a middle)
    (hnext : ∀ low ≤ middle, ReadsBack (f a) bytes ⟨low, free.high⟩ b limit) :
    ReadsBack (r >>= f) bytes free b limit := by
  obtain ⟨low, hlow, hread⟩ := h
  obtain ⟨last, hlast, hreads⟩ := hnext low hlow
  refine ⟨last, hlast, ?_⟩
  rw [run_bind, hread, Option.bind_some, hreads]

theorem map (build : α → β) (h : ReadsBack r bytes free a limit) :
    ReadsBack (r >>= fun a => pure (build a)) bytes free (build a) limit :=
  h.bind fun low hlow => ⟨low, hlow, rfl⟩

theorem byteAt {position : Nat} {b : UInt8} {f : UInt8 → Reader α}
    (hbyte : bytes[position]? = some b) (h : ReadsBack (f b) bytes free a limit) :
    ReadsBack (Reader.byteAt position >>= f) bytes free a limit := by
  obtain ⟨low, hlow, hread⟩ := h
  refine ⟨low, hlow, ?_⟩
  rw [run_bind, run_byteAt hbyte, Option.bind_some, hread]

/-- A number that stands at a position is read, and nothing else. -/
theorem natAt {position width n : Nat} {blocks : List Block}
    (h : Holds bytes position (littleEndian width n) ∧ blocks = []) (hn : n < 256 ^ width)
    (hstacked : Stacked free.low blocks limit) :
    ReadsBack (Reader.natAt position width) bytes free n limit := by
  obtain ⟨hholds, rfl⟩ := h
  exact ⟨free.low, hstacked, run_natAt hholds hn free⟩

end ReadsBack

/-- A type whose archives are laid out as the type says and read back. -/
class LawfulArchived (α : Type) [Archived α] [Layout α] : Prop where
  size_pos : 0 < Archived.size α
  align_pos : 0 < Archived.align α
  length_image : ∀ {a : α} {anchor : Archived.Anchor α} {position : Nat} {part : List UInt8},
    Archived.image a anchor position = some part → part.length = Archived.size α
  prefix_store : ∀ {a : α} {written stored : Array UInt8} {anchor : Archived.Anchor α},
    Archived.store a written = some (anchor, stored) → written.toList <+: stored.toList
  /-- The blocks of a stored value lie in what was stored for it. -/
  liesAt : ∀ {bytes : Array UInt8} {position : Nat} {a : α} {written stored : Array UInt8}
    {anchor : Archived.Anchor α}, Located bytes position a written stored anchor →
    ∃ blocks, LiesAt bytes position a blocks ∧ Stacked written.size blocks stored.size
  readsBack : ∀ {bytes : Array UInt8} {free : FreeRange} {position limit : Nat} {a : α}
    {blocks : List Block}, LiesAt bytes position a blocks → Stacked free.low blocks limit →
    limit ≤ free.high → ReadsBack (Archived.load position) bytes free a limit

/-! ## Words -/

/-- Values that are kept in their images as a whole, as the bytes of the numbers that stand for
them. -/
structure IsWord [Archived α] [Layout α] (number : α → Nat) (value : Nat → α) : Prop where
  value_number : ∀ a, value (number a) = a
  number_lt : ∀ a, number a < 256 ^ Archived.size α
  size_pos : 0 < Archived.size α := by decide
  align_pos : 0 < Archived.align α := by decide
  store : ∀ {a : α} {written stored : Array UInt8} {anchor : Archived.Anchor α},
    Archived.store a written = some (anchor, stored) → stored = written := by
      intro _ _ _ _ h; cases h; rfl
  image : ∀ (a : α) (anchor : Archived.Anchor α) (position : Nat),
    Archived.image a anchor position =
      some (littleEndian (Archived.size α) (number a)) := by intros; rfl
  liesAt_iff : ∀ (bytes : Array UInt8) (position : Nat) (a : α) (blocks : List Block),
    LiesAt bytes position a blocks ↔
      Holds bytes position (littleEndian (Archived.size α) (number a)) ∧
        blocks = [] := by intros; rfl
  load : ∀ position, Archived.load position =
    natAt position (Archived.size α) >>= fun n => pure (value n) := by intros; rfl

/-- Words are lawful: nothing is stored for them, and their numbers are read back. -/
theorem IsWord.lawfulArchived [Archived α] [Layout α] {number : α → Nat} {value : Nat → α}
    (h : IsWord number value) : LawfulArchived α where
  size_pos := h.size_pos
  align_pos := h.align_pos
  length_image := by
    intro a anchor position part himage
    obtain rfl := Option.some.inj ((h.image a anchor position).symm.trans himage)
    exact length_littleEndian _ _
  prefix_store := by
    intro a written stored anchor hstore
    rw [h.store hstore]
  liesAt := by
    intro bytes position a written stored anchor hlocated
    obtain ⟨part, hpart, hholds⟩ := hlocated.image
    obtain rfl := Option.some.inj ((h.image a anchor position).symm.trans hpart)
    obtain rfl := h.store hlocated.store
    exact ⟨[], (h.liesAt_iff bytes position a []).mpr ⟨hholds, rfl⟩, le_refl _⟩
  readsBack := by
    intro bytes free position limit a blocks hlies hstacked _
    have hword := (h.liesAt_iff bytes position a blocks).mp hlies
    have hread := (ReadsBack.natAt hword (h.number_lt a) hstacked).map value
    rwa [h.value_number, ← h.load] at hread

theorem isWord_int32 : IsWord (fun n : Int32 => n.toUInt32.toNat)
    fun word => (UInt32.ofNat word).toInt32 where
  value_number n := by
    rw [UInt32.ofNat_toNat]
    rfl
  number_lt n := n.toUInt32.toNat_lt

theorem isWord_int64 : IsWord (fun n : Int64 => n.toUInt64.toNat)
    fun word => (UInt64.ofNat word).toInt64 where
  value_number n := by
    rw [UInt64.ofNat_toNat]
    rfl
  number_lt n := n.toUInt64.toNat_lt

theorem isWord_single : IsWord (fun x : Single => x.bits.toNat)
    fun word => ⟨UInt32.ofNat word⟩ where
  value_number x := by rw [UInt32.ofNat_toNat]
  number_lt x := x.bits.toNat_lt

instance : LawfulArchived Int32 := isWord_int32.lawfulArchived
instance : LawfulArchived Int64 := isWord_int64.lawfulArchived
instance : LawfulArchived Single := isWord_single.lawfulArchived

instance : LawfulArchived UInt8 where
  size_pos := by decide
  align_pos := by decide
  length_image h := by cases h; rfl
  prefix_store h := by cases h; exact List.prefix_refl _
  liesAt := by
    intro bytes position b written stored anchor h
    obtain ⟨part, hpart, hholds⟩ := h.image
    cases h.store
    cases hpart
    exact ⟨[], ⟨hholds.head, rfl⟩, le_refl _⟩
  readsBack := by
    intro bytes free position limit b blocks h hstacked _
    obtain ⟨hbyte, rfl⟩ := h
    exact ⟨free.low, hstacked, run_byteAt hbyte free⟩

/-! ## Texts -/

/-- A text inside its image is read back. -/
private theorem readsBack_inline {bytes : Array UInt8} {free : FreeRange} {position : Nat}
    {text : String} (hshort : text.utf8ByteSize ≤ inlineLimit)
    (h : Holds bytes position
      (bytesOf text ++ List.replicate (inlineLimit - text.utf8ByteSize) 0xFF)) :
    Archived.load position bytes free = some (text, free) := by
  obtain ⟨first, rest, hcons⟩ : ∃ first rest,
      bytesOf text ++ List.replicate (inlineLimit - text.utf8ByteSize) 0xFF = first :: rest := by
    apply List.exists_cons_of_length_pos
    simp only [List.length_append, length_bytesOf, List.length_replicate, inlineLimit] at hshort ⊢
    omega
  have hmark : first &&& 0xC0 ≠ 0x80 := by
    cases hbytes : bytesOf text with
    | nil =>
      have hsize : text.utf8ByteSize = 0 := by rw [← length_bytesOf, hbytes]; rfl
      rw [hbytes, hsize] at hcons
      injection hcons with hfirst _
      rw [← hfirst]
      decide
    | cons b others =>
      rw [hbytes, List.cons_append] at hcons
      injection hcons with hfirst _
      exact hfirst ▸ mark_ne_of_head_bytesOf hbytes
  have hlength : inlineLimit =
      (bytesOf text ++ List.replicate (inlineLimit - text.utf8ByteSize) 0xFF).length := by
    simp only [List.length_append, length_bytesOf, List.length_replicate]
    omega
  have hread := run_bytesAt h free
  rw [← hlength] at hread
  rw [hcons] at h
  simp only [Archived.load, run_bind, run_byteAt h.head, Option.bind_some, if_pos hmark, hread,
    takeWhile_bytesOf, textOf_bytesOf, run_pure]

/-- A text outside of its image is read back, and with it a block of its size. -/
private theorem readsBack_stored {bytes : Array UInt8} {free : FreeRange} {position start : Nat}
    {text : String} (hlong : inlineLimit < text.utf8ByteSize)
    (hfits : text.utf8ByteSize < storedLimit)
    (hword : Holds bytes position (littleEndian 4 (lengthWord text.utf8ByteSize)))
    (hplace : PointsTo bytes (position + 4) position start)
    (hstart : Holds bytes start (bytesOf text)) (hlow : free.low ≤ start)
    (hhigh : start + text.utf8ByteSize ≤ free.high) :
    Archived.load position bytes free =
      some (text, ⟨start + text.utf8ByteSize, free.high⟩) := by
  have hmark : ¬ UInt8.ofNat (lengthWord text.utf8ByteSize) &&& 0xC0 ≠ 0x80 :=
    not_not_intro (mark_lengthWord _)
  obtain ⟨offset, hoffset, hholds⟩ := hplace
  have hcontents : (bytesAt start text.utf8ByteSize) bytes ⟨free.low, start⟩ =
      some (bytesOf text, ⟨free.low, start⟩) := by
    rw [← length_bytesOf]
    exact run_bytesAt hstart _
  simp only [Archived.load, run_bind, run_byteAt hword.head, Option.bind_some, if_neg hmark,
    run_natAt hword (lengthWord_lt hfits), lengthOfWord_lengthWord, run_ensure hlong,
    run_target hoffset hholds, run_block hlow hhigh (Nat.mod_one _) hcontents, textOf_bytesOf,
    run_pure]

instance : LawfulArchived String where
  size_pos := by decide
  align_pos := by decide
  length_image := by
    intro text anchor position part h
    simp only [Archived.image] at h
    split at h
    · rename_i hshort
      cases h
      simp only [List.length_append, List.length_replicate]
      exact Nat.add_sub_cancel' hshort
    · obtain ⟨offset, hoffset, rfl⟩ := Option.map_eq_some_iff.mp h
      rw [List.length_append, length_littleEndian, length_of_offsetBytes? hoffset]
      rfl
  prefix_store := by
    intro text written stored anchor h
    simp only [Archived.store] at h
    split at h
    · cases h
      exact List.prefix_refl _
    · obtain ⟨-, h⟩ := Option.ite_none_right_eq_some.mp h
      cases h
      simp
  liesAt := by
    intro bytes position text written stored anchor h
    obtain ⟨part, himage, hholds⟩ := h.image
    have hstore := h.store
    simp only [Archived.store] at hstore
    change (if (bytesOf text).length ≤ inlineLimit then _ else _) = _ at himage
    rw [length_bytesOf] at himage
    by_cases hshort : text.utf8ByteSize ≤ inlineLimit
    · rw [if_pos hshort] at hstore himage
      cases hstore
      cases himage
      refine ⟨[], ?_, le_refl _⟩
      simp only [LiesAt, if_pos hshort, and_true]
      exact hholds
    · rw [if_neg hshort] at hstore himage
      obtain ⟨hfits, hstore⟩ := Option.ite_none_right_eq_some.mp hstore
      obtain ⟨offset, hoffset, rfl⟩ := Option.map_eq_some_iff.mp himage
      cases hstore
      have hkept : written.toList ++ bytesOf text <+: bytes.toList := by
        simpa [bytesOf] using h.kept
      have hplace := hholds.right
      rw [length_littleEndian] at hplace
      refine ⟨[⟨written.size, text.utf8ByteSize, 1⟩], ?_, le_refl _, Nat.mod_one _, ?_⟩
      · simp only [LiesAt, if_neg hshort]
        exact ⟨hfits, written.size, hholds.left, ⟨offset, hoffset, hplace⟩, .of_written hkept, rfl⟩
      · simp [Stacked, ByteArray.size_data]
  readsBack := by
    intro bytes free position limit text blocks h hstacked hlimit
    simp only [LiesAt] at h
    by_cases hshort : text.utf8ByteSize ≤ inlineLimit
    · rw [if_pos hshort] at h
      obtain ⟨hholds, rfl⟩ := h
      exact ⟨free.low, hstacked, readsBack_inline hshort hholds⟩
    · rw [if_neg hshort] at h
      obtain ⟨hfits, start, hword, hplace, hstart, rfl⟩ := h
      obtain ⟨hlow, -, hhigh⟩ := hstacked
      exact ⟨start + text.utf8ByteSize, hhigh, readsBack_stored (Nat.lt_of_not_le hshort) hfits
        hword hplace hstart hlow (Nat.le_trans hhigh hlimit)⟩

/-! ## Lists, pairs, optional values and views -/

theorem size_padTo_mod {align : Nat} (h : 0 < align) (written : Array UInt8) :
    (padTo align written).size % align = 0 := by
  rw [size_padTo]
  exact alignUp_mod _ h

theorem prefix_padTo (align : Nat) (written : Array UInt8) :
    written.toList <+: (padTo align written).toList := by
  simp [padTo]

section

variable [Archived α] [Layout α] [LawfulArchived α]

theorem prefix_storeAll {values : List α} {written stored : Array UInt8}
    {anchors : List (Archived.Anchor α)}
    (h : storeAll values written = some (anchors, stored)) :
    written.toList <+: stored.toList ∧ anchors.length = values.length := by
  induction values generalizing written anchors with
  | nil =>
    cases h
    exact ⟨List.prefix_refl _, rfl⟩
  | cons a rest ih =>
    obtain ⟨first, hfirst, h⟩ := Option.bind_eq_some_iff.mp h
    obtain ⟨others, hothers, h⟩ := Option.bind_eq_some_iff.mp h
    cases h
    have hrest := ih hothers
    exact ⟨(LawfulArchived.prefix_store hfirst).trans hrest.1, by simp [hrest.2]⟩

theorem length_imageAll {values : List α} {anchors : List (Archived.Anchor α)} {position : Nat}
    {part : List UInt8} (h : imageAll values anchors position = some part)
    (hanchors : anchors.length = values.length) :
    part.length = values.length * Archived.size α := by
  induction values generalizing anchors position part with
  | nil =>
    cases h
    simp
  | cons a rest ih =>
    obtain ⟨anchor, anchors, rfl⟩ : ∃ anchor others, anchors = anchor :: others :=
      List.exists_cons_of_length_pos (by simp [hanchors])
    obtain ⟨first, hfirst, h⟩ := Option.bind_eq_some_iff.mp h
    obtain ⟨others, hothers, h⟩ := Option.bind_eq_some_iff.mp h
    cases h
    rw [List.length_append, LawfulArchived.length_image hfirst,
      ih hothers (by simpa using hanchors), List.length_cons, Nat.succ_mul, Nat.add_comm]

/-- Values that were stored in turn lie one behind the other. -/
theorem allLieAt_of_located {bytes : Array UInt8} {position : Nat} {values : List α}
    {written stored : Array UInt8} {anchors : List (Archived.Anchor α)} {part : List UInt8}
    (hstore : storeAll values written = some (anchors, stored))
    (himage : imageAll values anchors position = some part) (hholds : Holds bytes position part)
    (hkept : stored.toList <+: bytes.toList) (hbehind : stored.size ≤ position) :
    ∃ blocks, AllLieAt bytes position values blocks ∧
      Stacked written.size blocks stored.size := by
  induction values generalizing position written anchors part with
  | nil =>
    cases hstore
    exact ⟨[], rfl, le_refl _⟩
  | cons a rest ih =>
    obtain ⟨first, hfirst, hstore⟩ := Option.bind_eq_some_iff.mp hstore
    obtain ⟨others, hothers, hstore⟩ := Option.bind_eq_some_iff.mp hstore
    cases hstore
    obtain ⟨image, hone, himage⟩ := Option.bind_eq_some_iff.mp himage
    obtain ⟨images, hmany, himage⟩ := Option.bind_eq_some_iff.mp himage
    cases himage
    have hprefix : first.2.toList <+: others.2.toList := (prefix_storeAll hothers).1
    have hsize : first.2.size ≤ others.2.size := by simpa using hprefix.length_le
    have hlocated : Located bytes position a written first.2 first.1 :=
      ⟨hfirst, ⟨image, hone, hholds.left⟩, hprefix.trans hkept, hsize.trans hbehind⟩
    obtain ⟨blocks, hlies, hstacked⟩ := LawfulArchived.liesAt hlocated
    have hright := hholds.right
    rw [LawfulArchived.length_image hone] at hright
    obtain ⟨behind, hrest, hstackedRest⟩ := ih hothers hmany hright
      (hbehind.trans (Nat.le_add_right _ _))
    exact ⟨blocks ++ behind, ⟨blocks, behind, hlies, hrest, rfl⟩, hstacked.append hstackedRest⟩

/-- Values that lie one behind the other are read back, each with what the ones before it left
free. -/
theorem readsBack_loadAll {bytes : Array UInt8} {free : FreeRange} {position limit : Nat}
    {values : List α} {blocks : List Block} (h : AllLieAt bytes position values blocks)
    (hstacked : Stacked free.low blocks limit) (hlimit : limit ≤ free.high) :
    ReadsBack (loadAll values.length position) bytes free values limit := by
  induction values generalizing free position blocks with
  | nil =>
    cases h
    exact ⟨free.low, hstacked, rfl⟩
  | cons a rest ih =>
    obtain ⟨first, others, hfirst, hrest, rfl⟩ := h
    obtain ⟨middle, hbefore, hbehind⟩ := Stacked.append_iff.mp hstacked
    have hread := LawfulArchived.readsBack hfirst hbefore (hbehind.le.trans hlimit)
    refine hread.bind fun low hlow => ReadsBack.map _ ?_
    exact ih hrest (hbehind.mono hlow (le_refl _)) hlimit

instance : LawfulArchived (List α) where
  size_pos := Nat.zero_lt_succ 7
  align_pos := Nat.zero_lt_succ 3
  length_image := by
    intro values anchor position part h
    obtain ⟨offset, hoffset, rfl⟩ := Option.map_eq_some_iff.mp h
    rw [List.length_append, length_littleEndian, length_of_offsetBytes? hoffset]
    rfl
  prefix_store := by
    intro values written stored anchor h
    obtain ⟨elements, helements, h⟩ := Option.bind_eq_some_iff.mp h
    obtain ⟨images, himages, h⟩ := Option.bind_eq_some_iff.mp h
    cases h
    have hpadded := (prefix_storeAll helements).1.trans (prefix_padTo (Archived.align α) elements.2)
    exact hpadded.trans (by simp)
  liesAt := by
    intro bytes position values written stored anchor h
    obtain ⟨part, himage, hholds⟩ := h.image
    obtain ⟨offset, hoffset, rfl⟩ := Option.map_eq_some_iff.mp himage
    obtain ⟨elements, helements, hstore⟩ := Option.bind_eq_some_iff.mp h.store
    obtain ⟨images, himages, hstore⟩ := Option.bind_eq_some_iff.mp hstore
    cases hstore
    have hpadded := prefix_padTo (Archived.align α) elements.2
    have haligned := size_padTo_mod (@LawfulArchived.align_pos α _ _ _) elements.2
    generalize padTo (Archived.align α) elements.2 = padded at *
    have hcount : images.length = values.length * Archived.size α :=
      length_imageAll himages (prefix_storeAll helements).2
    have hsize : (padded ++ images.toArray).size =
        padded.size + values.length * Archived.size α := by
      simp [hcount]
    have hpad : elements.2.size ≤ padded.size := by simpa using hpadded.length_le
    have hkept : padded.toList ++ images <+: bytes.toList := by simpa using h.kept
    obtain ⟨inner, hinner, hstacked⟩ := allLieAt_of_located helements himages (.of_written hkept)
      (hpadded.trans ((List.prefix_append _ _).trans hkept)) hpad
    have hfits : values.length < 256 ^ 4 := by
      have hreach := le_of_offsetBytes? hoffset
      have hbehind := hsize ▸ h.behind
      have hone : values.length ≤ values.length * Archived.size α :=
        Nat.le_mul_of_pos_right _ LawfulArchived.size_pos
      omega
    have hlength := hholds.right
    rw [length_of_offsetBytes? hoffset] at hlength
    exact ⟨_, ⟨padded.size, inner, ⟨offset, hoffset, hholds.left⟩, hlength, hfits, hinner, rfl⟩,
      hstacked.append ⟨hpad, haligned, hsize.ge⟩⟩
  readsBack := by
    intro bytes free position limit values blocks h hstacked hlimit
    obtain ⟨start, inner, ⟨offset, hoffset, hplace⟩, hlength, hfits, hinner, rfl⟩ := h
    obtain ⟨middle, hbefore, hmiddle, haligned, hend⟩ := Stacked.append_iff.mp hstacked
    have hcontents : ReadsBack (loadAll values.length start) bytes ⟨free.low, start⟩ values start :=
      readsBack_loadAll hinner (hbefore.mono (le_refl _) hmiddle) (le_refl _)
    obtain ⟨low, -, hread⟩ := hcontents
    have hblock := run_block (hbefore.le.trans hmiddle) (Nat.le_trans hend hlimit) haligned hread
    refine ⟨start + values.length * Archived.size α, hend, ?_⟩
    simp only [Archived.load, run_bind, run_target hoffset hplace, run_natAt hlength hfits,
      Option.bind_some, hblock]

instance [Archived β] [Layout β] [LawfulArchived β] : LawfulArchived (α × β) where
  size_pos := by
    have hsecond : 0 < Archived.size β := LawfulArchived.size_pos
    have hused := le_alignUp (alignUp (Archived.size α) (Archived.align β) + Archived.size β)
      (max (Archived.align α) (Archived.align β))
    change 0 < alignUp _ _
    omega
  align_pos := by
    have hfirst : 0 < Archived.align α := LawfulArchived.align_pos
    exact Nat.lt_of_lt_of_le hfirst (Nat.le_max_left _ _)
  length_image := by
    intro pair anchor position part h
    obtain ⟨first, hfirst, h⟩ := Option.bind_eq_some_iff.mp h
    obtain ⟨second, hsecond, h⟩ := Option.bind_eq_some_iff.mp h
    cases h
    have hstart := le_alignUp (Archived.size α) (Archived.align β)
    have hused := le_alignUp (alignUp (Archived.size α) (Archived.align β) + Archived.size β)
      (max (Archived.align α) (Archived.align β))
    simp only [List.length_append, List.length_replicate, LawfulArchived.length_image hfirst,
      LawfulArchived.length_image hsecond]
    change _ = alignUp (alignUp (Archived.size α) (Archived.align β) + Archived.size β)
      (max (Archived.align α) (Archived.align β))
    omega
  prefix_store := by
    intro pair written stored anchor h
    obtain ⟨first, hfirst, h⟩ := Option.bind_eq_some_iff.mp h
    obtain ⟨second, hsecond, h⟩ := Option.bind_eq_some_iff.mp h
    cases h
    exact (LawfulArchived.prefix_store hfirst).trans (LawfulArchived.prefix_store hsecond)
  liesAt := by
    intro bytes position pair written stored anchor h
    obtain ⟨part, himage, hholds⟩ := h.image
    obtain ⟨first, hfirst, hstore⟩ := Option.bind_eq_some_iff.mp h.store
    obtain ⟨second, hsecond, hstore⟩ := Option.bind_eq_some_iff.mp hstore
    cases hstore
    obtain ⟨image, hone, himage⟩ := Option.bind_eq_some_iff.mp himage
    obtain ⟨other, htwo, himage⟩ := Option.bind_eq_some_iff.mp himage
    cases himage
    have hprefix : first.2.toList <+: second.2.toList := LawfulArchived.prefix_store hsecond
    have hsize : first.2.size ≤ second.2.size := by simpa using hprefix.length_le
    have hstart := le_alignUp (Archived.size α) (Archived.align β)
    have hgap : (image ++ List.replicate
        (alignUp (Archived.size α) (Archived.align β) - Archived.size α) 0).length =
        alignUp (Archived.size α) (Archived.align β) := by
      rw [List.length_append, LawfulArchived.length_image hone, List.length_replicate]
      omega
    have hright := hholds.left.right
    rw [hgap] at hright
    have hlocated : Located bytes position pair.1 written first.2 first.1 :=
      ⟨hfirst, ⟨image, hone, hholds.left.left.left⟩, hprefix.trans h.kept, hsize.trans h.behind⟩
    obtain ⟨before, hbefore, hstackedBefore⟩ := LawfulArchived.liesAt hlocated
    have hnext : Located bytes (position + alignUp (Archived.size α) (Archived.align β)) pair.2
        first.2 second.2 second.1 :=
      ⟨hsecond, ⟨other, htwo, hright⟩, h.kept, h.behind.trans (Nat.le_add_right _ _)⟩
    obtain ⟨behind, hbehind, hstackedBehind⟩ := LawfulArchived.liesAt hnext
    exact ⟨before ++ behind, ⟨before, behind, hbefore, hbehind, rfl⟩,
      hstackedBefore.append hstackedBehind⟩
  readsBack := by
    intro bytes free position limit pair blocks h hstacked hlimit
    obtain ⟨first, second, hfirst, hsecond, rfl⟩ := h
    obtain ⟨middle, hbefore, hbehind⟩ := Stacked.append_iff.mp hstacked
    have hread := LawfulArchived.readsBack hfirst hbefore (hbehind.le.trans hlimit)
    refine hread.bind fun low hlow => ReadsBack.map _ ?_
    exact LawfulArchived.readsBack hsecond (hbehind.mono hlow (le_refl _)) hlimit

instance : LawfulArchived (Option α) where
  size_pos := Nat.lt_of_lt_of_le LawfulArchived.size_pos (Nat.le_add_left _ _)
  align_pos := @LawfulArchived.align_pos α _ _ _
  length_image := by
    intro value anchor position part h
    have hstart := le_alignUp 1 (Archived.align α)
    match value, anchor with
    | some a, some anchor =>
      obtain ⟨image, himage, rfl⟩ := Option.map_eq_some_iff.mp h
      simp only [List.length_append, List.length_cons, List.length_replicate,
        LawfulArchived.length_image himage]
      change _ = alignUp 1 (Archived.align α) + Archived.size α
      omega
    | some a, none => cases h; exact List.length_replicate
    | none, anchor => cases h; exact List.length_replicate
  prefix_store := by
    intro value written stored anchor h
    match value with
    | none => cases h; exact List.prefix_refl _
    | some a =>
      obtain ⟨first, hfirst, h⟩ := Option.map_eq_some_iff.mp h
      cases h
      exact LawfulArchived.prefix_store hfirst
  liesAt := by
    intro bytes position value written stored anchor h
    obtain ⟨part, himage, hholds⟩ := h.image
    have hstart := le_alignUp 1 (Archived.align α)
    match value with
    | none =>
      cases h.store
      cases himage
      have hpos : 0 < alignUp 1 (Archived.align α) + Archived.size α := by omega
      have hfirst := hholds 0 (by rwa [List.length_replicate])
      rw [Nat.add_zero, List.getElem?_replicate_of_lt hpos] at hfirst
      exact ⟨[], ⟨hfirst, rfl⟩, le_refl _⟩
    | some a =>
      obtain ⟨first, hfirst, hstore⟩ := Option.map_eq_some_iff.mp h.store
      cases hstore
      obtain ⟨image, hone, rfl⟩ := Option.map_eq_some_iff.mp himage
      have hright := hholds.right
      have hgap : ((1 : UInt8) :: List.replicate (alignUp 1 (Archived.align α) - 1) 0).length =
          alignUp 1 (Archived.align α) := by
        simp only [List.length_cons, List.length_replicate]
        omega
      rw [hgap] at hright
      have hlocated : Located bytes (position + alignUp 1 (Archived.align α)) a written first.2
          first.1 :=
        ⟨hfirst, ⟨image, hone, hright⟩, h.kept, h.behind.trans (Nat.le_add_right _ _)⟩
      obtain ⟨blocks, hlies, hstacked⟩ := LawfulArchived.liesAt hlocated
      exact ⟨blocks, ⟨hholds.left.head, hlies⟩, hstacked⟩
  readsBack := by
    intro bytes free position limit value blocks h hstacked hlimit
    match value with
    | none =>
      obtain ⟨hbyte, rfl⟩ := h
      exact .byteAt hbyte ⟨free.low, hstacked, rfl⟩
    | some a =>
      obtain ⟨hbyte, hlies⟩ := h
      exact .byteAt hbyte ((LawfulArchived.readsBack hlies hstacked hlimit).map some)

/-- A view of a lawful type is lawful when nothing is lost in it. -/
theorem LawfulArchived.via (view : β → α) (build : α → β) (h : ∀ b, build (view b) = b) :
    @LawfulArchived β (Archived.via view build) (Layout.via view) :=
  letI := Archived.via view build
  letI := Layout.via view
  { size_pos := @LawfulArchived.size_pos α _ _ _
    align_pos := @LawfulArchived.align_pos α _ _ _
    length_image := fun h => @LawfulArchived.length_image α _ _ _ _ _ _ _ h
    prefix_store := fun h => @LawfulArchived.prefix_store α _ _ _ _ _ _ _ h
    liesAt := fun hlocated => @LawfulArchived.liesAt α _ _ _ _ _ _ _ _ _
      ⟨hlocated.store, hlocated.image, hlocated.kept, hlocated.behind⟩
    readsBack := by
      intro bytes free position limit b blocks hlies hstacked hlimit
      have hread : ReadsBack (Archived.load position) bytes free (view b) limit :=
        LawfulArchived.readsBack hlies hstacked hlimit
      exact h b ▸ hread.map build }

/-! ## Whole archives -/

/-- The archive of a value is laid out as the type of the value says. -/
theorem laidOut_of_encode? {a : α} {archive : List UInt8} (h : encode? a = some archive) :
    LaidOut archive a := by
  obtain ⟨stored, hstore, h⟩ := Option.bind_eq_some_iff.mp h
  obtain ⟨root, hroot, h⟩ := Option.bind_eq_some_iff.mp h
  cases h
  have hpadded := prefix_padTo (Archived.align α) stored.2
  have haligned := size_padTo_mod (@LawfulArchived.align_pos α _ _ _) stored.2
  generalize padTo (Archived.align α) stored.2 = padded at *
  have hlength := LawfulArchived.length_image hroot
  have hsize : stored.2.size ≤ padded.size := by simpa using hpadded.length_le
  have hlocated : Located (padded.toList ++ root).toArray padded.size a #[] stored.2 stored.1 :=
    ⟨hstore, ⟨root, hroot, .of_written (by simp)⟩, hpadded.trans (by simp), hsize⟩
  obtain ⟨blocks, hlies, hstacked⟩ := LawfulArchived.liesAt hlocated
  have hposition : (padded.toList ++ root).length - Archived.size α = padded.size := by
    simp [hlength]
  have hend : padded.size + Archived.size α ≤ (padded.toList ++ root).length := by simp [hlength]
  refine ⟨blocks, ?_, ?_⟩
  · rw [hposition]
    exact hlies
  · rw [hposition]
    exact hstacked.append ⟨hsize, haligned, hend⟩

/-- Whatever is laid out as the archive of a value is read as the value. -/
theorem decode?_of_laidOut {a : α} {archive : List UInt8} (h : LaidOut archive a) :
    decode? archive = some a := by
  obtain ⟨blocks, hlies, hstacked⟩ := h
  obtain ⟨middle, hbefore, hmiddle, haligned, hend⟩ := Stacked.append_iff.mp hstacked
  have hroot : ReadsBack (Archived.load (archive.length - Archived.size α)) archive.toArray
      ⟨0, archive.length - Archived.size α⟩ a (archive.length - Archived.size α) :=
    LawfulArchived.readsBack hlies (hbefore.mono (le_refl _) hmiddle) (le_refl _)
  obtain ⟨low, -, hread⟩ := hroot
  have hblock : block (archive.length - Archived.size α) (Archived.size α) (Archived.align α)
      (Archived.load (archive.length - Archived.size α)) archive.toArray ⟨0, archive.length⟩ =
      some (a, _) :=
    run_block (Nat.zero_le _) hend haligned hread
  simp only [decode?, runRoot, hblock, Option.map_some]

/-- The archive of a value is read back as the value. -/
theorem decode?_encode? {a : α} {archive : List UInt8} (h : encode? a = some archive) :
    decode? archive = some a :=
  decode?_of_laidOut (laidOut_of_encode? h)

/-- An archive has at least the bytes of its root. -/
theorem size_le_of_encode? {a : α} {archive : List UInt8} (h : encode? a = some archive) :
    Archived.size α ≤ archive.length := by
  obtain ⟨stored, hstore, h⟩ := Option.bind_eq_some_iff.mp h
  obtain ⟨root, hroot, h⟩ := Option.bind_eq_some_iff.mp h
  cases h
  simp [LawfulArchived.length_image hroot]

end

end LiveDetection.Archive
