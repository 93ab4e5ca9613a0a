/-
Module: StyleAudit.Proofs.FileSystem.FileNames
Purpose: The name under which a file system keeps a file has the bytes of the name that was asked
  for, and is kept under itself.
Trusted boundary: none
Main exports: fileBytes?_ofChars, fileBytes?_fileName, fileName_fileName, byteSize_fileName
-/
import StyleAudit.FileSystem.Path

namespace StyleAudit

namespace Text

theorem fileBytes?_cons (p : CodePoint) (points : List CodePoint) :
    fileBytes? ⟨p :: points⟩
      = p.fileBytes?.bind fun first => (fileBytes? ⟨points⟩).map fun rest => first ++ rest := by
  rw [fileBytes?, fileBytes?, List.mapM_cons]
  cases p.fileBytes? with
  | none => rfl
  | some first => cases points.mapM CodePoint.fileBytes? <;> rfl

/-!
### The character that ends names

No byte of a name is zero: the character that would have it is no part of names, and the bytes of
all other characters, and the bytes that halves of pairs stand for, are not.
-/

theorem zero_ne_byte {n : Nat} (nonzero : n % 256 ≠ 0) : (0 : UInt8) ≠ UInt8.ofNat n := by
  intro same
  have values := congrArg UInt8.toNat same
  rw [UInt8.toNat_ofNat'] at values
  exact nonzero values.symm

theorem zero_not_mem_encodeChar {c : Char} (other : c ≠ '\x00') :
    0 ∉ String.utf8EncodeChar c := by
  have positive : 0 < c.val.toNat := by
    rcases Nat.eq_zero_or_pos c.val.toNat with zero | positive
    · have same : c.toNat = Char.toNat '\x00' := zero
      exact absurd (Char.toNat_inj.1 same) other
    · exact positive
  intro member
  rw [String.utf8EncodeChar] at member
  -- Beyond one byte, each of them is what starts or continues a character, at least 128.
  split at member
  · rw [List.mem_singleton] at member
    exact zero_ne_byte (by omega) member
  · split at member
    · simp only [List.mem_cons, List.not_mem_nil, or_false] at member
      rcases member with byte | byte
      all_goals exact zero_ne_byte (by omega) byte
    · split at member
      · simp only [List.mem_cons, List.not_mem_nil, or_false] at member
        rcases member with byte | byte | byte
        all_goals exact zero_ne_byte (by omega) byte
      · simp only [List.mem_cons, List.not_mem_nil, or_false] at member
        rcases member with byte | byte | byte | byte
        all_goals exact zero_ne_byte (by omega) byte

theorem zero_not_mem_codePoint {p : CodePoint} {bytes : List UInt8}
    (named : p.fileBytes? = some bytes) : 0 ∉ bytes := by
  cases p with
  | char c =>
      rw [CodePoint.fileBytes?] at named
      split at named
      · cases named
      · rename_i other
        cases named
        exact zero_not_mem_encodeChar other
  | surrogate place =>
      rw [CodePoint.fileBytes?] at named
      split at named
      · rename_i escaped
        cases named
        rw [List.mem_singleton]
        apply zero_ne_byte
        rw [firstEscapedByte]
        omega
      · cases named

theorem zero_not_mem_fileBytes {name : Text} {bytes : List UInt8}
    (named : name.fileBytes? = some bytes) : 0 ∉ bytes := by
  obtain ⟨points⟩ := name
  induction points generalizing bytes with
  | nil =>
      cases named
      exact List.not_mem_nil
  | cons p rest ih =>
      rw [fileBytes?_cons, Option.bind_eq_some_iff] at named
      obtain ⟨first, ofFirst, later⟩ := named
      obtain ⟨others, ofRest, rfl⟩ := Option.map_eq_some_iff.1 later
      rw [List.mem_append, not_or]
      exact ⟨zero_not_mem_codePoint ofFirst, ih ofRest⟩

/-!
### Names and bytes
-/

/-- Characters stand for their bytes. -/
theorem fileBytes?_ofChars {chars : List Char} (noEnd : '\x00' ∉ chars) :
    (ofChars chars).fileBytes? = some (chars.flatMap String.utf8EncodeChar) := by
  induction chars with
  | nil => rfl
  | cons c rest ih =>
      obtain ⟨other, restNoEnd⟩ := List.ne_and_not_mem_of_not_mem_cons noEnd
      have first : (CodePoint.char c).fileBytes? = some (String.utf8EncodeChar c) := by
        rw [CodePoint.fileBytes?, if_neg other.symm]
      show fileBytes? ⟨.char c :: (ofChars rest).points⟩ = _
      rw [fileBytes?_cons, first, Option.bind_some, ih restNoEnd]
      rfl

/-- What bytes decode to is made of these bytes. -/
theorem flatMap_of_decoded {bytes : List UInt8} {plain : String}
    (decoded : String.fromUTF8? ⟨bytes.toArray⟩ = some plain) :
    plain.toList.flatMap String.utf8EncodeChar = bytes := by
  have bytesOf : plain.toByteArray = ⟨bytes.toArray⟩ := by
    rw [String.fromUTF8?] at decoded
    split at decoded
    · cases decoded
      rfl
    · cases decoded
  have spelled : (plain.toList.flatMap String.utf8EncodeChar).toByteArray = plain.toByteArray :=
    String.utf8Encode_toList
  calc plain.toList.flatMap String.utf8EncodeChar
      = (plain.toList.flatMap String.utf8EncodeChar).toByteArray.data.toList :=
        List.toList_data_toByteArray.symm
    _ = bytes := by rw [spelled, bytesOf]

/-- A name is kept under one with the same bytes. -/
theorem fileBytes?_fileName (name : Text) : name.fileName.fileBytes? = name.fileBytes? := by
  rw [fileName]
  cases named : name.fileBytes? with
  | none => exact named
  | some bytes =>
      simp only
      cases decoded : String.fromUTF8? ⟨bytes.toArray⟩ with
      | none => exact named
      | some plain =>
          have spelled := flatMap_of_decoded decoded
          have noEnd : '\x00' ∉ plain.toList := by
            intro member
            have zero : 0 ∈ plain.toList.flatMap String.utf8EncodeChar :=
              List.mem_flatMap.2 ⟨_, member, List.mem_cons_self⟩
            rw [spelled] at zero
            exact zero_not_mem_fileBytes named zero
          show (ofChars plain.toList).fileBytes? = _
          rw [fileBytes?_ofChars noEnd, spelled]

/-- A name is kept under itself once it is kept. -/
theorem fileName_fileName (name : Text) : name.fileName.fileName = name.fileName := by
  have same := fileBytes?_fileName name
  rw [fileName.eq_def name.fileName, same]
  cases named : name.fileBytes? with
  | none => rfl
  | some bytes =>
      simp only
      cases decoded : String.fromUTF8? ⟨bytes.toArray⟩ with
      | none => rfl
      | some plain =>
          rw [fileName, named]
          simp only [decoded]

theorem byteSize_fileName (name : Text) : name.fileName.byteSize = name.byteSize := by
  rw [byteSize, byteSize, fileBytes?_fileName]

end Text

end StyleAudit
