import SourceCritic.Text.Utf8

/-!
# Bytes of a text

A text is encoded character by character.  An ASCII character is encoded as a single byte, and the
bytes of all other characters are larger than any of these.  So an ASCII character may be looked for
among the bytes of a text: it is found as often as it is there, and only where a character begins.
-/

namespace SourceCritic.Text

/-! ## Encoding character by character -/

/-- The bytes of a text. -/
def bytes (text : List Char) : List UInt8 :=
  encode (String.ofList text)

private theorem toList_loop_eq (array : ByteArray) (index : Nat) (reversed : List UInt8) :
    ByteArray.toList.loop array index reversed =
      reversed.reverse ++ array.data.toList.drop index := by
  fun_induction ByteArray.toList.loop array index reversed with
  | case1 index reversed inside inductionHypothesis =>
      have inData : index < array.data.toList.length :=
        inside
      have head : array.get! index = array.data.toList[index] :=
        getElem!_pos array.data index inside
      rw [inductionHypothesis, List.drop_eq_getElem_cons inData, head]
      simp
  | case2 index reversed outside =>
      have beyond : array.data.toList.length ≤ index :=
        Nat.not_lt.mp outside
      rw [List.drop_of_length_le beyond, List.append_nil]

theorem bytes_eq_flatMap (text : List Char) : bytes text = text.flatMap String.utf8EncodeChar := by
  rw [bytes, encode, String.toUTF8_eq_toByteArray, String.toByteArray_ofList, ByteArray.toList,
    toList_loop_eq, List.utf8Encode, List.toList_data_toByteArray]
  rfl

@[simp]
theorem bytes_nil : bytes [] = [] := by
  rw [bytes_eq_flatMap, List.flatMap_nil]

theorem bytes_cons (head : Char) (rest : List Char) :
    bytes (head :: rest) = String.utf8EncodeChar head ++ bytes rest := by
  rw [bytes_eq_flatMap, bytes_eq_flatMap, List.flatMap_cons]

/-- Texts are encoded piece by piece. -/
theorem bytes_append (first second : List Char) :
    bytes (first ++ second) = bytes first ++ bytes second := by
  simp only [bytes_eq_flatMap, List.flatMap_append]

/-- A text can be told from its bytes. -/
theorem bytes_inj {first second : List Char} (same : bytes first = bytes second) :
    first = second := by
  have encoded : first.utf8Encode = second.utf8Encode := by
    rw [bytes_eq_flatMap, bytes_eq_flatMap] at same
    rw [List.utf8Encode, List.utf8Encode, same]
  have sameText : String.ofList first = String.ofList second := by
    rw [← String.toByteArray_inj, String.toByteArray_ofList, String.toByteArray_ofList, encoded]
  simpa using congrArg String.toList sameText

/-- Of two beginnings of a text, the one with fewer bytes is a beginning of the other. -/
theorem exists_of_length_bytes_le
    {front back first second : List Char}
    (division : front ++ back = first ++ second)
    (fewer : (bytes front).length ≤ (bytes first).length) :
    ∃ between, first = front ++ between ∧ back = between ++ second := by
  rcases List.append_eq_append_iff.mp division with
    ⟨between, firstShape, backShape⟩ | ⟨between, rfl, secondShape⟩
  · exact ⟨between, firstShape, backShape⟩
  · rw [bytes_append, List.length_append] at fewer
    have nothing : bytes between = bytes [] := by
      rw [bytes_nil, ← List.length_eq_zero_iff]
      omega
    obtain rfl := bytes_inj nothing
    exact ⟨[], by simp, by simpa using secondShape.symm⟩

theorem length_bytes_lt_of_prefix
    {first second : List Char} (isPrefix : first <+: second)
    (shorter : first.length < second.length) :
    (bytes first).length < (bytes second).length := by
  obtain ⟨between, rfl⟩ := isPrefix
  cases between with
  | nil =>
      rw [List.append_nil] at shorter
      exact absurd shorter (Nat.lt_irrefl _)
  | cons head later =>
      have positive : 0 < (String.utf8EncodeChar head).length :=
        List.length_pos_iff.mpr String.utf8EncodeChar_ne_nil
      rw [bytes_append, bytes_cons, List.length_append, List.length_append]
      omega

/-! ## ASCII characters -/

/-- The byte of an ASCII character. -/
def asciiByte (character : Char) : UInt8 :=
  character.toNat.toUInt8

/-- A character whose byte stands for nothing else. -/
def IsAscii (character : Char) : Prop :=
  character.toNat < 0x80

instance (character : Char) : Decidable (IsAscii character) :=
  inferInstanceAs (Decidable (character.toNat < 0x80))

theorem toNat_ofNat_of_isValidChar {code : Nat} (valid : code.isValidChar) :
    (Char.ofNat code).toNat = code := by
  rw [Char.ofNat, dif_pos valid]
  rfl

theorem utf8EncodeChar_of_isAscii {character : Char} (isAscii : IsAscii character) :
    String.utf8EncodeChar character = [asciiByte character] := by
  have small : character.val.toNat ≤ 0x7F :=
    Nat.le_of_lt_succ isAscii
  rw [String.utf8EncodeChar]
  simp only [small, if_true]
  rfl

theorem bytes_cons_of_isAscii {head : Char} (isAscii : IsAscii head) (rest : List Char) :
    bytes (head :: rest) = asciiByte head :: bytes rest := by
  rw [bytes_cons, utf8EncodeChar_of_isAscii isAscii, List.singleton_append]

private theorem le_of_mem_utf8EncodeChar
    {character : Char} (notAscii : ¬ IsAscii character)
    {byte : UInt8} (member : byte ∈ String.utf8EncodeChar character) :
    0x80 ≤ byte.toNat := by
  have large : ¬ character.val.toNat ≤ 0x7F :=
    fun small => notAscii (Nat.lt_succ_of_le small)
  rw [String.utf8EncodeChar] at member
  simp only [large, if_false] at member
  split at member
  · simp only [List.mem_cons, List.not_mem_nil, or_false] at member
    rcases member with rfl | rfl <;> rw [UInt8.toNat_ofNat'] <;> omega
  split at member
  · simp only [List.mem_cons, List.not_mem_nil, or_false] at member
    rcases member with rfl | rfl | rfl <;> rw [UInt8.toNat_ofNat'] <;> omega
  · simp only [List.mem_cons, List.not_mem_nil, or_false] at member
    rcases member with rfl | rfl | rfl | rfl <;> rw [UInt8.toNat_ofNat'] <;> omega

theorem toNat_asciiByte {character : Char} (isAscii : IsAscii character) :
    (asciiByte character).toNat = character.toNat := by
  have small : character.toNat < 0x80 :=
    isAscii
  rw [asciiByte, Nat.toUInt8_eq, UInt8.toNat_ofNat']
  omega

/-- Among the bytes of a character there is that of an ASCII character only if they are the same. -/
theorem asciiByte_mem_utf8EncodeChar_iff
    {character : Char} (isAscii : IsAscii character) (other : Char) :
    asciiByte character ∈ String.utf8EncodeChar other ↔ other = character := by
  constructor
  · intro member
    have small : character.toNat < 0x80 :=
      isAscii
    by_cases otherAscii : IsAscii other
    · rw [utf8EncodeChar_of_isAscii otherAscii, List.mem_singleton] at member
      have sameNumber := congrArg UInt8.toNat member
      rw [toNat_asciiByte isAscii, toNat_asciiByte otherAscii] at sameNumber
      rw [← Char.ofNat_toNat other, ← sameNumber, Char.ofNat_toNat]
    · have large := le_of_mem_utf8EncodeChar otherAscii member
      rw [toNat_asciiByte isAscii] at large
      omega
  · rintro rfl
    rw [utf8EncodeChar_of_isAscii isAscii]
    exact List.mem_singleton.mpr rfl

/-- An ASCII character is found among the bytes of a text exactly where it begins in the text. -/
theorem getElem?_bytes_eq_asciiByte_iff
    {character : Char} (isAscii : IsAscii character) (text : List Char) (index : Nat) :
    (bytes text)[index]? = some (asciiByte character) ↔
      ∃ front rest, text = front ++ character :: rest ∧ index = (bytes front).length := by
  constructor
  · intro found
    induction text generalizing index with
    | nil => simp at found
    | cons head rest inductionHypothesis =>
        rw [bytes_cons] at found
        by_cases within : index < (String.utf8EncodeChar head).length
        · rw [List.getElem?_append_left within] at found
          have member := List.mem_of_getElem? found
          obtain rfl := (asciiByte_mem_utf8EncodeChar_iff isAscii head).mp member
          rw [utf8EncodeChar_of_isAscii isAscii, List.length_singleton] at within
          exact ⟨[], rest, rfl, by simpa using within⟩
        · have beyond := Nat.not_lt.mp within
          rw [List.getElem?_append_right beyond] at found
          obtain ⟨front, later, rfl, position⟩ := inductionHypothesis _ found
          refine ⟨head :: front, later, rfl, ?_⟩
          rw [bytes_cons, List.length_append]
          omega
  · rintro ⟨front, rest, rfl, rfl⟩
    rw [bytes_append, List.getElem?_append_right (Nat.le_refl _), Nat.sub_self,
      bytes_cons_of_isAscii isAscii, List.getElem?_cons_zero]

/-- An ASCII character occurs as often among the bytes as among the characters. -/
theorem count_bytes {character : Char} (isAscii : IsAscii character) (text : List Char) :
    (bytes text).count (asciiByte character) = text.count character := by
  induction text with
  | nil => rw [bytes_nil, List.count_nil, List.count_nil]
  | cons head rest inductionHypothesis =>
      rw [bytes_cons, List.count_append, inductionHypothesis, List.count_cons]
      by_cases same : head = character
      · subst same
        rw [utf8EncodeChar_of_isAscii isAscii, List.count_singleton_self]
        simp
        omega
      · have absent : asciiByte character ∉ String.utf8EncodeChar head := by
          rw [asciiByte_mem_utf8EncodeChar_iff isAscii]
          exact same
        rw [List.count_eq_zero_of_not_mem absent]
        simp [same]

end SourceCritic.Text
