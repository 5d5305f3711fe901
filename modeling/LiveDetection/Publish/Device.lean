import LiveDetection.Publish.Lines

/-!
# Devices that take bytes in pieces

A device may take only the first of the bytes that it is offered. The rest is offered again, until
all bytes are taken or the device takes none.
-/

namespace LiveDetection

/-- A device that takes bytes in pieces. Failures come with their reason. -/
class Device (δ : Type) where
  /-- Take some of the bytes from the first on. The answer says how many were taken. An offer that
  is interrupted is made again, so an interruption is not an answer. -/
  accept : List UInt8 → δ → Except String Nat × δ
  /-- Hand on what was taken. -/
  flush : δ → Except String Unit × δ

/-- Offer bytes until all are taken. -/
def offerAll {δ : Type} [Device δ] (bytes : List UInt8) (d : δ) : Except String Unit × δ :=
  if bytes = [] then (.ok (), d)
  else
    match Device.accept bytes d with
    | (.error reason, d) => (.error reason, d)
    | (.ok 0, d) => (.error "failed to write whole buffer", d)
    | (.ok (n + 1), d) => offerAll (bytes.drop (n + 1)) d
termination_by bytes.length
decreasing_by
  have hlength := List.length_pos_iff.mpr ‹bytes ≠ []›
  simp only [List.length_drop]
  omega

instance {δ : Type} [Device δ] : ByteSink δ where
  write := offerAll
  flush := Device.flush

section

variable {δ : Type} [Device δ] {bytes : List UInt8} {d d' : δ}

theorem write_device (bytes : List UInt8) (d : δ) : ByteSink.write bytes d = offerAll bytes d := rfl

theorem flush_device (d : δ) : ByteSink.flush d = Device.flush d := rfl

@[simp] theorem offerAll_nil (d : δ) : offerAll [] d = (.ok (), d) := by
  rw [offerAll, if_pos rfl]

/-- What is left of the bytes is offered again. -/
theorem offerAll_of_accept {n : Nat} (hbytes : bytes ≠ []) (hpos : 0 < n)
    (h : Device.accept bytes d = (.ok n, d')) : offerAll bytes d = offerAll (bytes.drop n) d' := by
  obtain ⟨k, rfl⟩ := Nat.exists_eq_succ_of_ne_zero (Nat.ne_of_gt hpos)
  rw [offerAll, if_neg hbytes, h]

end

end LiveDetection
