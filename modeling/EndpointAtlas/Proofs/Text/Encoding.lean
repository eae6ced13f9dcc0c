import EndpointAtlas.Text.Units

/-!
# Encoded texts

A text is read back from its bytes in UTF-8 (`decode_encode`), and no other bytes are read
(`decode_eq_some_iff`). The bytes of a text that starts with two characters of ASCII, as JSON with a
mapping does, are not taken for wide units (`ofBytes_encode`).
-/

namespace EndpointAtlas.Text

theorem toNat_ofNat_of_lt {n : Nat} (h : n < 256) : (UInt8.ofNat n).toNat = n :=
  UInt8.toNat_ofNat_of_lt' h

theorem continuation?_ofNat {n : Nat} (h : n < 64) :
    continuation? (UInt8.ofNat (128 + n)) = some n := by
  unfold continuation?
  rw [toNat_ofNat_of_lt (by omega), if_pos (by omega), Nat.add_sub_cancel_left]

theorem scalarFrom?_toNat {c : Char} {least : Nat} (h : least ≤ c.toNat) :
    scalarFrom? least c.toNat = some c := by
  rw [scalarFrom?, if_pos ⟨h, c.valid⟩, Char.ofNat_toNat]

theorem toNat_lt (c : Char) : c.toNat < 0x110000 := by
  rcases c.valid with h | ⟨-, h⟩
  · exact Nat.lt_trans h (by decide)
  · exact h

/-- A character is read back from its bytes. -/
theorem decode_encodeChar (c : Char) (rest : List UInt8) :
    decode (encodeChar c ++ rest) = (c :: ·) <$> decode rest := by
  have hbound := toNat_lt c
  unfold encodeChar
  dsimp only
  split
  · next h =>
    rw [List.singleton_append, decode.eq_def]
    simp only [toNat_ofNat_of_lt (show c.toNat < 256 by omega)]
    rw [if_pos h, Char.ofNat_toNat]
  · split
    · next h0 h1 =>
      rw [List.cons_append, List.singleton_append, decode.eq_def]
      simp only [toNat_ofNat_of_lt (show 192 + c.toNat / 64 < 256 by omega), Nat.div_one]
      rw [if_neg (by omega), if_pos (by omega), continuation?_ofNat (by omega)]
      have hvalue : (192 + c.toNat / 64 - 192) * 64 + c.toNat % 64 = c.toNat := by omega
      simp only [Option.bind_eq_bind, Option.bind_some, hvalue,
        scalarFrom?_toNat (show 0x80 ≤ c.toNat by omega)]
    · split
      · next h1 h2 =>
        rw [List.cons_append, List.cons_append, List.singleton_append, decode.eq_def]
        simp only [toNat_ofNat_of_lt (show 224 + c.toNat / 4096 < 256 by omega), Nat.div_one]
        rw [if_neg (by omega), if_neg (by omega), if_pos (by omega),
          continuation?_ofNat (by omega), continuation?_ofNat (by omega)]
        have hvalue : ((224 + c.toNat / 4096 - 224) * 64 + c.toNat / 64 % 64) * 64 +
            c.toNat % 64 = c.toNat := by omega
        simp only [Option.bind_eq_bind, Option.bind_some, hvalue,
          scalarFrom?_toNat (show 0x800 ≤ c.toNat by omega)]
      · next h2 =>
        rw [List.cons_append, List.cons_append, List.cons_append, List.singleton_append,
          decode.eq_def]
        simp only [toNat_ofNat_of_lt (show 240 + c.toNat / 262144 < 256 by omega), Nat.div_one]
        rw [if_neg (by omega), if_neg (by omega), if_neg (by omega), if_pos (by omega),
          continuation?_ofNat (by omega), continuation?_ofNat (by omega),
          continuation?_ofNat (by omega)]
        have hvalue : (((240 + c.toNat / 262144 - 240) * 64 + c.toNat / 4096 % 64) * 64 +
            c.toNat / 64 % 64) * 64 + c.toNat % 64 = c.toNat := by omega
        simp only [Option.bind_eq_bind, Option.bind_some, hvalue,
          scalarFrom?_toNat (show 0x10000 ≤ c.toNat by omega)]

/-- **A text is read back from its bytes.** -/
theorem decode_encode (cs : List Char) : decode (encode cs) = some cs := by
  induction cs with
  | nil => rfl
  | cons c rest ih =>
    rw [encode, List.flatMap_cons, decode_encodeChar]
    change (c :: ·) <$> decode (encode rest) = _
    rw [ih]
    rfl

/-- Bytes without a zero among the first two are taken for UTF-8, if they have no mark. -/
theorem ofUnmarked_eq_decode {a b : UInt8} {rest : List UInt8} (ha : a ≠ 0) (hb : b ≠ 0) :
    ofUnmarked (a :: b :: rest) = decode (a :: b :: rest) := by
  unfold ofUnmarked
  split
  · next heq => exact absurd (List.cons.inj heq).1 ha
  · next heq => exact absurd (List.cons.inj (List.cons.inj heq).2).1 hb
  · next heq => exact absurd (List.cons.inj heq).1 ha
  · next heq => exact absurd (List.cons.inj (List.cons.inj heq).2).1 hb
  · rfl

/-- A mark does not start with a byte of ASCII other than zero. -/
theorem ofBytes_eq_ofUnmarked {a b : UInt8} {rest : List UInt8} (ha : a ≠ 0)
    (hascii : a.toNat < 128) : ofBytes (a :: b :: rest) = ofUnmarked (a :: b :: rest) := by
  have hmark : ∀ x : UInt8, 128 ≤ x.toNat → a ≠ x := by
    rintro x hx rfl
    omega
  unfold ofBytes
  split
  · next heq => exact absurd (List.cons.inj heq).1 ha
  · next heq => exact absurd (List.cons.inj heq).1 (hmark _ (by decide))
  · next heq => exact absurd (List.cons.inj heq).1 (hmark _ (by decide))
  · next heq => exact absurd (List.cons.inj heq).1 (hmark _ (by decide))
  · next heq => exact absurd (List.cons.inj heq).1 (hmark _ (by decide))
  · rfl

theorem encode_cons_of_ascii {c : Char} (h : c.toNat < 128) (rest : List Char) :
    encode (c :: rest) = UInt8.ofNat c.toNat :: encode rest := by
  rw [encode, List.flatMap_cons, encodeChar]
  dsimp only
  rw [if_pos h]
  rfl

/-- Whether a character is one of ASCII, and not the first of them. -/
def isAscii (c : Char) : Bool := 0 < c.toNat && c.toNat < 128

/-- A text that starts with two characters of ASCII is read back from its bytes, however these may
be given. -/
theorem ofBytes_encode {a b : Char} {rest : List Char} (ha : isAscii a = true)
    (hb : isAscii b = true) : ofBytes (encode (a :: b :: rest)) = some (a :: b :: rest) := by
  simp only [isAscii, Bool.and_eq_true, decide_eq_true_eq] at ha hb
  have htoNat : ∀ c : Char, c.toNat < 128 → (UInt8.ofNat c.toNat).toNat = c.toNat :=
    fun c hc => toNat_ofNat_of_lt (by omega)
  have hne : ∀ c : Char, 0 < c.toNat → c.toNat < 128 → UInt8.ofNat c.toNat ≠ 0 := by
    intro c hpos hlt hzero
    have := htoNat c hlt
    rw [hzero, UInt8.toNat_zero] at this
    omega
  have hbytes := decode_encode (a :: b :: rest)
  rw [encode_cons_of_ascii ha.2, encode_cons_of_ascii hb.2] at hbytes ⊢
  rw [ofBytes_eq_ofUnmarked (hne a ha.1 ha.2) (by rw [htoNat a ha.2]; exact ha.2),
    ofUnmarked_eq_decode (hne a ha.1 ha.2) (hne b hb.1 hb.2)]
  exact hbytes

theorem ofBytes_encode_append {start rest : List Char} (hascii : ∀ c ∈ start, isAscii c = true)
    (hlength : 2 ≤ start.length) : ofBytes (encode (start ++ rest)) = some (start ++ rest) := by
  match start, hascii, hlength with
  | a :: b :: more, hascii, _ =>
    rw [List.forall_mem_cons, List.forall_mem_cons] at hascii
    exact ofBytes_encode hascii.1 hascii.2.1

/-! ## Back to the bytes -/

theorem eq_of_continuation? {b : UInt8} {n : Nat} (h : continuation? b = some n) :
    n < 64 ∧ b = UInt8.ofNat (128 + n) := by
  unfold continuation? at h
  split at h
  · next hbound =>
    obtain rfl := Option.some.inj h
    rw [Nat.add_sub_cancel' hbound.1, UInt8.ofNat_toNat]
    exact ⟨by omega, rfl⟩
  · cases h

theorem toNat_ofNat_of_isValidChar {n : Nat} (h : n.isValidChar) : (Char.ofNat n).toNat = n := by
  rw [Char.ofNat, dif_pos h]
  rfl

theorem eq_of_scalarFrom? {least n : Nat} {c : Char} (h : scalarFrom? least n = some c) :
    least ≤ n ∧ c.toNat = n := by
  unfold scalarFrom? at h
  split at h
  · next hbound =>
    obtain rfl := Option.some.inj h
    exact ⟨hbound.1, toNat_ofNat_of_isValidChar hbound.2⟩
  · cases h

section

variable {c : Char} {a : UInt8} {m m' m'' : Nat}

theorem encodeChar_eq_one (ha : a.toNat < 128) : encodeChar (Char.ofNat a.toNat) = [a] := by
  have hvalue := toNat_ofNat_of_isValidChar (n := a.toNat) (.inl (by omega))
  unfold encodeChar
  dsimp only
  rw [hvalue, if_pos ha, UInt8.ofNat_toNat]

theorem encodeChar_eq_two (ha : 192 ≤ a.toNat ∧ a.toNat < 224) (hm : m < 64)
    (hleast : 0x80 ≤ c.toNat) (hc : c.toNat = (a.toNat - 192) * 64 + m) :
    encodeChar c = [a, UInt8.ofNat (128 + m)] := by
  have hfirst : 192 + c.toNat / 64 = a.toNat := by omega
  have hsecond : c.toNat / 1 % 64 = m := by omega
  unfold encodeChar
  dsimp only
  rw [if_neg (by omega), if_pos (by omega), hfirst, hsecond, UInt8.ofNat_toNat]

theorem encodeChar_eq_three (ha : 224 ≤ a.toNat ∧ a.toNat < 240) (hm : m < 64) (hm' : m' < 64)
    (hleast : 0x800 ≤ c.toNat) (hc : c.toNat = ((a.toNat - 224) * 64 + m) * 64 + m') :
    encodeChar c = [a, UInt8.ofNat (128 + m), UInt8.ofNat (128 + m')] := by
  have hfirst : 224 + c.toNat / 4096 = a.toNat := by omega
  have hsecond : c.toNat / 64 % 64 = m := by omega
  have hthird : c.toNat / 1 % 64 = m' := by omega
  unfold encodeChar
  dsimp only
  rw [if_neg (by omega), if_neg (by omega), if_pos (by omega), hfirst, hsecond, hthird,
    UInt8.ofNat_toNat]

theorem encodeChar_eq_four (ha : 240 ≤ a.toNat ∧ a.toNat < 248) (hm : m < 64) (hm' : m' < 64)
    (hm'' : m'' < 64) (hleast : 0x10000 ≤ c.toNat)
    (hc : c.toNat = (((a.toNat - 240) * 64 + m) * 64 + m') * 64 + m'') :
    encodeChar c =
      [a, UInt8.ofNat (128 + m), UInt8.ofNat (128 + m'), UInt8.ofNat (128 + m'')] := by
  have hfirst : 240 + c.toNat / 262144 = a.toNat := by omega
  have hsecond : c.toNat / 4096 % 64 = m := by omega
  have hthird : c.toNat / 64 % 64 = m' := by omega
  have hfourth : c.toNat / 1 % 64 = m'' := by omega
  unfold encodeChar
  dsimp only
  rw [if_neg (by omega), if_neg (by omega), if_neg (by omega), hfirst, hsecond, hthird, hfourth,
    UInt8.ofNat_toNat]

end

theorem encode_cons (c : Char) (cs : List Char) : encode (c :: cs) = encodeChar c ++ encode cs :=
  List.flatMap_cons

/-- Bytes of which a text is read are the bytes of the text. -/
theorem encode_of_decode {bytes : List UInt8} {cs : List Char} (h : decode bytes = some cs) :
    encode cs = bytes := by
  fun_induction decode bytes generalizing cs with
  | case1 => cases h; rfl
  | case2 a rest ha ih =>
    obtain ⟨cs, hrest, rfl⟩ := Option.map_eq_some_iff.1 h
    rw [encode_cons, encodeChar_eq_one ha, ih hrest]
    rfl
  | case3 a _ ha b rest ih =>
    obtain ⟨m, hb, h⟩ := Option.bind_eq_some_iff.1 h
    obtain ⟨c, hc, h⟩ := Option.bind_eq_some_iff.1 h
    obtain ⟨cs, hrest, rfl⟩ := Option.map_eq_some_iff.1 h
    obtain ⟨hm, rfl⟩ := eq_of_continuation? hb
    obtain ⟨hleast, hc⟩ := eq_of_scalarFrom? hc
    rw [encode_cons, encodeChar_eq_two ha hm (by omega) hc, ih hrest]
    rfl
  | case5 a _ _ ha b b' rest ih =>
    obtain ⟨m, hb, h⟩ := Option.bind_eq_some_iff.1 h
    obtain ⟨m', hb', h⟩ := Option.bind_eq_some_iff.1 h
    obtain ⟨c, hc, h⟩ := Option.bind_eq_some_iff.1 h
    obtain ⟨cs, hrest, rfl⟩ := Option.map_eq_some_iff.1 h
    obtain ⟨hm, rfl⟩ := eq_of_continuation? hb
    obtain ⟨hm', rfl⟩ := eq_of_continuation? hb'
    obtain ⟨hleast, hc⟩ := eq_of_scalarFrom? hc
    rw [encode_cons, encodeChar_eq_three ha hm hm' (by omega) hc, ih hrest]
    rfl
  | case7 a _ _ _ ha b b' b'' rest ih =>
    obtain ⟨m, hb, h⟩ := Option.bind_eq_some_iff.1 h
    obtain ⟨m', hb', h⟩ := Option.bind_eq_some_iff.1 h
    obtain ⟨m'', hb'', h⟩ := Option.bind_eq_some_iff.1 h
    obtain ⟨c, hc, h⟩ := Option.bind_eq_some_iff.1 h
    obtain ⟨cs, hrest, rfl⟩ := Option.map_eq_some_iff.1 h
    obtain ⟨hm, rfl⟩ := eq_of_continuation? hb
    obtain ⟨hm', rfl⟩ := eq_of_continuation? hb'
    obtain ⟨hm'', rfl⟩ := eq_of_continuation? hb''
    obtain ⟨hleast, hc⟩ := eq_of_scalarFrom? hc
    rw [encode_cons, encodeChar_eq_four ha hm hm' hm'' (by omega) hc, ih hrest]
    rfl
  | _ => cases h

/-- Bytes are UTF-8 just when they are the bytes of a text. -/
theorem decode_eq_some_iff {bytes : List UInt8} {cs : List Char} :
    decode bytes = some cs ↔ bytes = encode cs :=
  ⟨fun h => (encode_of_decode h).symm, fun h => h ▸ decode_encode cs⟩

end EndpointAtlas.Text
