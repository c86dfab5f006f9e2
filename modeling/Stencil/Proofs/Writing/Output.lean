import Stencil.Output
import Stencil.Proofs.Text.Bytes
/-!
# Laws of writing

Writing a text in pieces is writing it at once. A sink with a limit takes the bytes that a sink without
one takes, up to the limit.
-/

namespace Stencil

namespace Sink

/-! ## What fits -/

theorem fitting_of_le {room : Nat} {cs : List Char} (h : byteSize cs ≤ room) (ds : List Char) :
    fitting room (cs ++ ds) =
      (cs ++ (fitting (room - byteSize cs) ds).1, (fitting (room - byteSize cs) ds).2) := by
  induction cs generalizing room with
  | nil => simp
  | cons c cs ih =>
    rw [byteSize_cons] at h
    have hc : c.utf8Size ≤ room := by omega
    rw [List.cons_append, fitting, if_pos hc, ih (by omega), byteSize_cons, Nat.sub_sub]
    rfl

theorem fitting_of_lt {room : Nat} {cs : List Char} (h : room < byteSize cs) (ds : List Char) :
    fitting room (cs ++ ds) = fitting room cs ∧ (fitting room cs).1.length < cs.length := by
  induction cs generalizing room with
  | nil => simp at h
  | cons c cs ih =>
    rw [byteSize_cons] at h
    by_cases hc : c.utf8Size ≤ room
    · have hrest : room - c.utf8Size < byteSize cs := by omega
      obtain ⟨heq, hlt⟩ := ih hrest
      simp [fitting, hc, heq, hlt]
    · simp [fitting, hc]

theorem firstBytes_append_left {cs : List Char} {n : Nat} (h : n < cs.length) (ds : List Char)
    (left : Nat) : firstBytes (cs ++ ds) n left = firstBytes cs n left := by
  rw [firstBytes, firstBytes, List.getElem?_append_left h]

theorem firstBytes_append_right (cs ds : List Char) (n left : Nat) :
    firstBytes (cs ++ ds) (cs.length + n) left = firstBytes ds n left := by
  rw [firstBytes, firstBytes, List.getElem?_append_right (Nat.le_add_right _ _), Nat.add_sub_cancel_left]

theorem encoded_fitting (room : Nat) (cs : List Char) :
    encoded (fitting room cs).1 ++ firstBytes cs (fitting room cs).1.length (fitting room cs).2 =
      (encoded cs).take room := by
  induction cs generalizing room with
  | nil => simp [fitting, firstBytes]
  | cons c cs ih =>
    have hlength : (String.utf8EncodeChar c).length = c.utf8Size := String.length_utf8EncodeChar c
    by_cases hc : c.utf8Size ≤ room
    · have htake : (String.utf8EncodeChar c).take room = String.utf8EncodeChar c :=
        List.take_of_length_le (by omega)
      have hfirst : ∀ n left, firstBytes (c :: cs) (n + 1) left = firstBytes cs n left :=
        fun n left => rfl
      simp only [fitting, if_pos hc, List.length_cons, hfirst, encoded_cons, List.append_assoc, ih,
        List.take_append, htake, hlength]
    · have hroom : room - c.utf8Size = 0 := by omega
      simp [fitting, hc, firstBytes, List.take_append, hlength, hroom]

/-! ## Writing -/

variable {k : Sink} {room : Nat} {s t : String}

theorem write_fits (hroom : k.room = some room) (h : s.utf8ByteSize ≤ room) :
    k.write s = (true, { k with text := k.text ++ s, room := some (room - s.utf8ByteSize) }) := by
  simp [write, hroom, h]

theorem write_cut (hroom : k.room = some room) (h : room < s.utf8ByteSize) :
    k.write s = (false, ⟨k.text ++ String.ofList (fitting room s.toList).1,
      firstBytes s.toList (fitting room s.toList).1.length (fitting room s.toList).2, some 0,
      k.refusal⟩) := by
  simp [write, hroom, Nat.not_le.mpr h]

theorem write_empty (k : Sink) : k.write "" = (true, k) := by
  obtain ⟨text, torn, _ | room, refusal⟩ := k <;> simp [write]

theorem write_append (k : Sink) (s t : String) :
    k.write (s ++ t) = if (k.write s).1 then (k.write s).2.write t else k.write s := by
  cases hroom : k.room with
  | none => simp [write, hroom, String.append_assoc]
  | some room =>
    have hlist : (s ++ t).toList = s.toList ++ t.toList := String.toList_append
    have hsize : (s ++ t).utf8ByteSize = s.utf8ByteSize + t.utf8ByteSize := String.utf8ByteSize_append
    have hs := byteSize_toList s
    rcases Nat.lt_or_ge room s.utf8ByteSize with hlt | hle
    -- the cut is in the first text, or in the second, or in neither
    · obtain ⟨hfit, hlength⟩ := fitting_of_lt (hs ▸ hlt) t.toList
      rw [write_cut hroom (by omega), hlist, hfit, write_cut hroom hlt]
      simp [firstBytes_append_left hlength]
    · rw [write_fits hroom hle, if_pos rfl]
      rcases Nat.lt_or_ge (room - s.utf8ByteSize) t.utf8ByteSize with hlt | hle'
      · rw [write_cut hroom (by omega), hlist, fitting_of_le (hs ▸ hle), write_cut rfl hlt, hs]
        simp [firstBytes_append_right, String.append_assoc]
      · rw [write_fits hroom (by omega), write_fits rfl hle', hsize, Nat.sub_sub, String.append_assoc]

theorem refusal_write (k : Sink) (s : String) : (k.write s).2.refusal = k.refusal := by
  unfold write
  split
  · rfl
  · split <;> rfl

theorem bytes_eq (k : Sink) : k.bytes = encoded k.text.toList ++ k.torn := by
  rw [bytes, bytes_toUTF8]

theorem bytes_limited (m : Nat) (refusal s : String) :
    ((limited m refusal).write s).2.bytes = (encoded s.toList).take m ∧
      (((limited m refusal).write s).1 = true ↔ (encoded s.toList).length ≤ m) := by
  rw [length_encoded, byteSize_toList]
  rcases Nat.lt_or_ge m s.utf8ByteSize with hlt | hle
  · rw [write_cut rfl hlt, bytes_eq]
    simp [limited, encoded_fitting, hlt]
  · have htake : (encoded s.toList).take m = encoded s.toList :=
      List.take_of_length_le (by rw [length_encoded, byteSize_toList]; exact hle)
    rw [write_fits rfl hle, bytes_eq]
    simp [limited, htake, hle]

end Sink

/-! ## Outputs -/

namespace Output

theorem write_empty (o : Output) : o.write "" = (true, o) := by
  cases o with
  | memory text => rw [write, String.append_empty]
  | sink k failure => rw [write, k.write_empty]

theorem write_append (o : Output) (s t : String) :
    o.write (s ++ t) = if (o.write s).1 then (o.write s).2.write t else o.write s := by
  cases o with
  | memory text => rw [write, ← String.append_assoc]; rfl
  | sink k failure =>
    have happend := k.write_append s t
    rw [write, write]
    cases hk : k.write s with
    | mk b k' =>
      rw [hk] at happend
      cases b <;> simp [happend, write]

theorem write_append_cases {o o' : Output} {taken : Bool} {s t : String}
    (h : o.write (s ++ t) = (taken, o')) :
    (∃ o₁, o.write s = (true, o₁) ∧ o₁.write t = (taken, o')) ∨
      o.write s = (false, o') ∧ taken = false := by
  rw [write_append] at h
  rcases hs : o.write s with ⟨_ | _, o₁⟩
  · rw [hs] at h
    cases h
    exact .inr ⟨rfl, rfl⟩
  · rw [hs] at h
    exact .inl ⟨o₁, rfl, h⟩

end Output

end Stencil
