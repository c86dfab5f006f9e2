import Stencil.Proofs.Text.Span
/-!
# The bytes of a text

The UTF-8 form of a text is that of its characters, one after the other.
-/

namespace Stencil

def encoded (cs : List Char) : List UInt8 := cs.flatMap String.utf8EncodeChar

@[simp] theorem encoded_nil : encoded [] = [] := rfl

@[simp] theorem encoded_cons (c : Char) (cs : List Char) :
    encoded (c :: cs) = String.utf8EncodeChar c ++ encoded cs := List.flatMap_cons

@[simp] theorem encoded_append (a b : List Char) : encoded (a ++ b) = encoded a ++ encoded b :=
  List.flatMap_append

@[simp] theorem length_encoded (cs : List Char) : (encoded cs).length = byteSize cs := by
  induction cs with
  | nil => rfl
  | cons c cs ih => simp [ih]

theorem toList_toUTF8 (s : String) : s.toUTF8.data.toList = encoded s.toList := by
  have hbytes : s.toByteArray = s.toList.utf8Encode := by
    rw [← String.toByteArray_ofList, String.ofList_toList]
  rw [String.toUTF8, hbytes, List.utf8Encode, List.data_toByteArray]
  rfl

theorem encoded_inj {s t : String} : encoded s.toList = encoded t.toList ↔ s = t := by
  rw [← toList_toUTF8, ← toList_toUTF8, Array.toList_inj, ← String.toByteArray_inj]
  exact ⟨ByteArray.ext, congrArg ByteArray.data⟩

theorem byteSize_toList (s : String) : byteSize s.toList = s.utf8ByteSize := by
  rw [← length_encoded, ← toList_toUTF8, Array.length_toList]
  rfl

theorem toList_loop (b : ByteArray) (i : Nat) (front : List UInt8) :
    ByteArray.toList.loop b i front = front.reverse ++ b.data.toList.drop i := by
  fun_induction ByteArray.toList.loop b i front with
  | case1 i front h ih =>
    have hi : i < b.data.toList.length := by simpa using h
    rw [ih, List.drop_eq_getElem_cons hi]
    simp [ByteArray.get!, h]
  | case2 i front h =>
    have hi : b.data.toList.length ≤ i := by simpa using h
    rw [List.drop_eq_nil_of_le hi, List.append_nil]

theorem bytes_toUTF8 (s : String) : s.toUTF8.toList = encoded s.toList := by
  rw [ByteArray.toList, toList_loop, ← toList_toUTF8]
  rfl

theorem encoded_prefix {a cs : List Char} : encoded a <+: encoded cs ↔ a <+: cs := by
  constructor
  · rintro ⟨rest, hrest⟩
    apply List.isPrefix_of_utf8Encode_append_eq_utf8Encode rest.toByteArray
    rw [List.utf8Encode, List.utf8Encode, ← List.toByteArray_append]
    exact congrArg List.toByteArray hrest
  · rintro ⟨rest, rfl⟩
    rw [encoded_append]
    exact List.prefix_append _ _

theorem split_of_encoded {mark cs : List Char} {place : Nat} (hmark : mark ≠ [])
    (h : encoded mark <+: (encoded cs).drop place) :
    ∃ before after, cs = before ++ (mark ++ after) ∧ byteSize before = place := by
  induction cs generalizing place with
  | nil =>
    obtain ⟨c, cs, rfl⟩ := List.exists_cons_of_ne_nil hmark
    simp at h
  | cons c cs ih =>
    by_cases hzero : place = 0
    · subst hzero
      obtain ⟨after, hafter⟩ := encoded_prefix.mp h
      exact ⟨[], after, hafter.symm, rfl⟩
    · rw [encoded_cons, List.drop_append, String.length_utf8EncodeChar] at h
      by_cases hle : c.utf8Size ≤ place
      · rw [List.drop_eq_nil_of_le (by simpa using hle), List.nil_append] at h
        obtain ⟨before, after, rfl, hbefore⟩ := ih h
        refine ⟨c :: before, after, rfl, ?_⟩
        simp
        omega
      · -- inside of a character there is no byte that begins one
        have hin : place < (String.utf8EncodeChar c).length := by simpa using hle
        obtain ⟨d, ds, rfl⟩ := List.exists_cons_of_ne_nil hmark
        have hd : 0 < (String.utf8EncodeChar d).length := by simpa using d.utf8Size_pos
        rw [List.drop_eq_getElem_cons hin, encoded_cons] at h
        obtain ⟨rest, hrest⟩ := h
        have hbyte : (String.utf8EncodeChar d)[0] = (String.utf8EncodeChar c)[place] := by
          have hhead := congrArg (fun bytes => bytes[0]?) hrest
          simp only [List.append_assoc, List.getElem?_append_left hd, List.cons_append,
            List.getElem?_eq_getElem hd, List.getElem?_cons_zero] at hhead
          exact Option.some.inj hhead
        have hfirst : (String.utf8EncodeChar d)[0].IsUTF8FirstByte :=
          UInt8.isUTF8FirstByte_getElem_zero_utf8EncodeChar
        rw [hbyte] at hfirst
        exact absurd (UInt8.isUTF8FirstByte_getElem_utf8EncodeChar.mp hfirst) hzero

end Stencil
