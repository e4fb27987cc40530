import CacheHost.Json.Reader

namespace CacheHost.Json

/-- How a character is written between quotes. -/
theorem escapedChar_cases (c : Char) :
    (∃ d, shortEscape? d = some c ∧ escapedChar c = ['\\', d]) ∨
    (c.toNat < 0x20 ∧ escapedChar c =
      ['\\', 'u', '0', '0', Nat.digitChar (c.toNat / 16), Nat.digitChar (c.toNat % 16)]) ∨
    (¬c.toNat < 0x20 ∧ c ≠ '"' ∧ c ≠ '\\' ∧ escapedChar c = [c]) := by
  unfold escapedChar
  split
  · exact .inl ⟨'"', rfl, rfl⟩
  · exact .inl ⟨'\\', rfl, rfl⟩
  · exact .inl ⟨'b', rfl, rfl⟩
  · exact .inl ⟨'t', rfl, rfl⟩
  · exact .inl ⟨'n', rfl, rfl⟩
  · exact .inl ⟨'f', rfl, rfl⟩
  · exact .inl ⟨'r', rfl, rfl⟩
  · rename_i hq hb _ _ _ _ _
    by_cases hc : c.toNat < 0x20
    · exact .inr (.inl ⟨hc, if_pos hc⟩)
    · exact .inr (.inr ⟨hc, hq, hb, if_neg hc⟩)

theorem hexDigit?_digitChar : ∀ n < 16, hexDigit? (Nat.digitChar n) = some n := by decide

/-- A control has two hexadecimal digits behind two zeros. -/
theorem hex?_control {n : Nat} (h : n < 0x20) :
    hex? ['0', '0', Nat.digitChar (n / 16), Nat.digitChar (n % 16)] = some n := by
  have hhigh := hexDigit?_digitChar (n / 16) (by omega)
  have hlow := hexDigit?_digitChar (n % 16) (by omega)
  have hzero : hexDigit? '0' = some 0 := rfl
  have hn : n / 16 * 16 + n % 16 = n := by omega
  simp [hex?, hhigh, hlow, hzero, hn]

variable (use : Use)

theorem readString_shortEscape {c d : Char} (h : shortEscape? d = some c) (s : Text) :
    readString use ('\\' :: d :: s) = pushChar c (readString use s) := by
  have hu : d ≠ 'u' := by
    rintro rfl
    simp [shortEscape?] at h
  simp [readString, hu, h]

theorem readString_control {c : Char} (h : c.toNat < 0x20) (s : Text) :
    readString use ('\\' :: 'u' :: '0' :: '0' :: Nat.digitChar (c.toNat / 16) ::
      Nat.digitChar (c.toNat % 16) :: s) = pushChar c (readString use s) := by
  have hs : (!isHighSurrogate c.toNat && !isLowSurrogate c.toNat) = true := by
    have hhigh : ¬0xD800 ≤ c.toNat := by omega
    have hlow : ¬0xDC00 ≤ c.toNat := by omega
    simp [isHighSurrogate, isLowSurrogate, hhigh, hlow]
  simp [readString, hex?_control h, hs]

theorem readString_cons {c : Char} (h : ¬c.toNat < 0x20) (hq : c ≠ '"') (hb : c ≠ '\\') (s : Text) :
    readString use (c :: s) = pushChar c (readString use s) := by
  rw [readString, if_neg h]
  all_goals simp [hq, hb]

theorem readString_escapedChar (c : Char) (s : Text) :
    readString use (escapedChar c ++ s) = pushChar c (readString use s) := by
  rcases escapedChar_cases c with ⟨d, hd, he⟩ | ⟨hc, he⟩ | ⟨hc, hq, hb, he⟩
  · rw [he]
    exact readString_shortEscape use hd s
  · rw [he]
    exact readString_control use hc s
  · rw [he]
    exact readString_cons use hc hq hb s

theorem readString_quoted (s rest : Text) :
    readString use (s.flatMap escapedChar ++ '"' :: rest) = .ok (s, rest) := by
  induction s with
  | nil => simp [readString]
  | cons c s ih =>
    rw [List.flatMap_cons, List.append_assoc, readString_escapedChar, ih]
    rfl

end CacheHost.Json
