import ChatHub.Token.Base64Url
/-!
Each sequence of bytes has one spelling, and that is the only text that is read as these bytes.
-/

namespace ChatHub.Base64Url

theorem value?_digit {n : Nat} (hn : n < 64) : value? (digit n) = some n := by
  have hall : ∀ n < 64, value? (digit n) = some n := by decide
  exact hall n hn

theorem value?_eq_some {c : Char} {n : Nat} : value? c = some n ↔ n < 64 ∧ c = digit n := by
  constructor
  · intro h
    have hrange {low high : Char} (hin : low ≤ c ∧ c ≤ high) :
        low.toNat ≤ c.toNat ∧ c.toNat ≤ high.toNat := hin
    rw [value?] at h
    split at h
    next hupper =>
      obtain ⟨hlow, hhigh⟩ : 65 ≤ c.toNat ∧ c.toNat ≤ 90 := hrange hupper
      obtain rfl : c.toNat - 65 = n := Option.some.inj h
      refine ⟨by omega, ?_⟩
      rw [digit, if_pos (by omega), show 'A'.toNat + (c.toNat - 65) = c.toNat from
        Nat.add_sub_cancel' hlow, Char.ofNat_toNat]
    split at h
    next hlower =>
      obtain ⟨hlow, hhigh⟩ : 97 ≤ c.toNat ∧ c.toNat ≤ 122 := hrange hlower
      obtain rfl : c.toNat - 97 + 26 = n := Option.some.inj h
      refine ⟨by omega, ?_⟩
      rw [digit, if_neg (by omega), if_pos (by omega), Nat.add_sub_cancel,
        show 'a'.toNat + (c.toNat - 97) = c.toNat from Nat.add_sub_cancel' hlow, Char.ofNat_toNat]
    split at h
    next hdigit =>
      obtain ⟨hlow, hhigh⟩ : 48 ≤ c.toNat ∧ c.toNat ≤ 57 := hrange hdigit
      obtain rfl : c.toNat - 48 + 52 = n := Option.some.inj h
      refine ⟨by omega, ?_⟩
      rw [digit, if_neg (by omega), if_neg (by omega), if_pos (by omega), Nat.add_sub_cancel,
        show '0'.toNat + (c.toNat - 48) = c.toNat from Nat.add_sub_cancel' hlow, Char.ofNat_toNat]
    split at h
    next hminus =>
      obtain rfl := Option.some.inj h
      exact ⟨by decide, hminus⟩
    split at h
    next hunderscore =>
      obtain rfl := Option.some.inj h
      exact ⟨by decide, hunderscore⟩
    next => cases h
  · rintro ⟨hn, rfl⟩
    exact value?_digit hn

theorem decode?_encode (bytes : List UInt8) : decode? (encode bytes) = some bytes := by
  fun_induction encode bytes with
  | case1 => rfl
  | case2 a n =>
    have ha : n < 256 := a.toNat_lt
    have hfirst : n / 4 < 64 := by omega
    have hlast : n % 4 * 16 < 64 := by omega
    have hbyte : n / 4 * 4 + n % 4 * 16 / 16 = a.toNat := by omega
    have hrest : n % 4 * 16 % 16 = 0 := by omega
    simp only [decode?, value?_digit hfirst, value?_digit hlast, if_pos hrest, hbyte,
      UInt8.ofNat_toNat]
  | case3 a b n =>
    have ha := a.toNat_lt
    have hb := b.toNat_lt
    have hfirst : n / 1024 < 64 := by omega
    have hsecond : n / 16 % 64 < 64 := by omega
    have hlast : n % 16 * 4 < 64 := by omega
    have hone : n / 1024 * 4 + n / 16 % 64 / 16 = a.toNat := by omega
    have htwo : n / 16 % 64 % 16 * 16 + n % 16 * 4 / 4 = b.toNat := by omega
    have hrest : n % 16 * 4 % 4 = 0 := by omega
    simp only [decode?, value?_digit hfirst, value?_digit hsecond, value?_digit hlast,
      if_pos hrest, hone, htwo, UInt8.ofNat_toNat]
  | case4 a b c rest n ih =>
    have ha := a.toNat_lt
    have hb := b.toNat_lt
    have hc := c.toNat_lt
    have hfirst : n / 262144 < 64 := by omega
    have hsecond : n / 4096 % 64 < 64 := by omega
    have hthird : n / 64 % 64 < 64 := by omega
    have hlast : n % 64 < 64 := by omega
    have hone : n / 262144 * 4 + n / 4096 % 64 / 16 = a.toNat := by omega
    have htwo : n / 4096 % 64 % 16 * 16 + n / 64 % 64 / 4 = b.toNat := by omega
    have hthree : n / 64 % 64 % 4 * 64 + n % 64 = c.toNat := by omega
    simp only [decode?, value?_digit hfirst, value?_digit hsecond, value?_digit hthird,
      value?_digit hlast, ih, hone, htwo, hthree, UInt8.ofNat_toNat]

theorem toNat_ofNat {n : Nat} (hn : n < 256) : (UInt8.ofNat n).toNat = n := by
  rw [UInt8.toNat_ofNat', Nat.mod_eq_of_lt hn]

/-- No bits are lost: what is read is spelled as it was. -/
theorem eq_encode_of_decode? {cs : List Char} {bytes : List UInt8} (h : decode? cs = some bytes) :
    cs = encode bytes := by
  fun_induction decode? cs generalizing bytes with
  | case1 =>
    cases h
    rfl
  | case3 w x m k hw hx hrest =>
    cases h
    obtain ⟨hm, rfl⟩ := value?_eq_some.mp hw
    obtain ⟨hk, rfl⟩ := value?_eq_some.mp hx
    have hbyte := toNat_ofNat (show m * 4 + k / 16 < 256 by omega)
    have hfirst : (m * 4 + k / 16) / 4 = m := by omega
    have hlast : (m * 4 + k / 16) % 4 * 16 = k := by omega
    simp only [encode, hbyte, hfirst, hlast]
  | case6 w x y m k l hw hx hy hrest =>
    cases h
    obtain ⟨hm, rfl⟩ := value?_eq_some.mp hw
    obtain ⟨hk, rfl⟩ := value?_eq_some.mp hx
    obtain ⟨hl, rfl⟩ := value?_eq_some.mp hy
    have hone := toNat_ofNat (show m * 4 + k / 16 < 256 by omega)
    have htwo := toNat_ofNat (show k % 16 * 16 + l / 4 < 256 by omega)
    have hfirst : ((m * 4 + k / 16) * 256 + (k % 16 * 16 + l / 4)) / 1024 = m := by omega
    have hsecond : ((m * 4 + k / 16) * 256 + (k % 16 * 16 + l / 4)) / 16 % 64 = k := by omega
    have hlast : ((m * 4 + k / 16) * 256 + (k % 16 * 16 + l / 4)) % 16 * 4 = l := by omega
    simp only [encode, hone, htwo, hfirst, hsecond, hlast]
  | case9 w x y z rest m k l i bytes hrest hz hy hx hw ih =>
    cases h
    obtain ⟨hm, rfl⟩ := value?_eq_some.mp hw
    obtain ⟨hk, rfl⟩ := value?_eq_some.mp hx
    obtain ⟨hl, rfl⟩ := value?_eq_some.mp hy
    obtain ⟨hi, rfl⟩ := value?_eq_some.mp hz
    have hone := toNat_ofNat (show m * 4 + k / 16 < 256 by omega)
    have htwo := toNat_ofNat (show k % 16 * 16 + l / 4 < 256 by omega)
    have hthree := toNat_ofNat (show l % 4 * 64 + i < 256 by omega)
    have hnumber : ((m * 4 + k / 16) * 256 + (k % 16 * 16 + l / 4)) * 256 + (l % 4 * 64 + i) =
        m * 262144 + k * 4096 + l * 64 + i := by omega
    have hfirst : (m * 262144 + k * 4096 + l * 64 + i) / 262144 = m := by omega
    have hsecond : (m * 262144 + k * 4096 + l * 64 + i) / 4096 % 64 = k := by omega
    have hthird : (m * 262144 + k * 4096 + l * 64 + i) / 64 % 64 = l := by omega
    have hlast : (m * 262144 + k * 4096 + l * 64 + i) % 64 = i := by omega
    simp only [encode, hone, htwo, hthree, hnumber, hfirst, hsecond, hthird, hlast, ← ih hrest]
  | _ => cases h

theorem decode?_eq_some {cs : List Char} {bytes : List UInt8} :
    decode? cs = some bytes ↔ cs = encode bytes :=
  ⟨eq_encode_of_decode?, fun h => h ▸ decode?_encode bytes⟩

theorem encode_inj {bytes bytes' : List UInt8} : encode bytes = encode bytes' ↔ bytes = bytes' := by
  refine ⟨fun h => ?_, congrArg encode⟩
  have hread := decode?_encode bytes
  rw [h, decode?_encode] at hread
  exact (Option.some.inj hread).symm

theorem exists_digit_of_mem_encode {bytes : List UInt8} {c : Char} (hc : c ∈ encode bytes) :
    ∃ n < 64, c = digit n := by
  fun_induction encode bytes with
  | case1 => cases hc
  | case2 a n =>
    have ha : n < 256 := a.toNat_lt
    simp only [List.mem_cons, List.not_mem_nil, or_false] at hc
    rcases hc with rfl | rfl
    all_goals exact ⟨_, by omega, rfl⟩
  | case3 a b n =>
    have ha := a.toNat_lt
    have hb := b.toNat_lt
    simp only [List.mem_cons, List.not_mem_nil, or_false] at hc
    rcases hc with rfl | rfl | rfl
    all_goals exact ⟨_, by omega, rfl⟩
  | case4 a b c' rest n ih =>
    have ha := a.toNat_lt
    have hb := b.toNat_lt
    have hc' := c'.toNat_lt
    simp only [List.mem_cons] at hc
    rcases hc with rfl | rfl | rfl | rfl | hc
    · exact ⟨_, by omega, rfl⟩
    · exact ⟨_, by omega, rfl⟩
    · exact ⟨_, by omega, rfl⟩
    · exact ⟨_, by omega, rfl⟩
    · exact ih hc

/-- What a spelling is made of, told by any test that the 64 characters pass. -/
theorem forall_mem_encode {p : Char → Prop} (hp : ∀ n < 64, p (digit n)) {bytes : List UInt8} :
    ∀ c ∈ encode bytes, p c := by
  intro c hc
  obtain ⟨n, hn, rfl⟩ := exists_digit_of_mem_encode hc
  exact hp n hn

end ChatHub.Base64Url
