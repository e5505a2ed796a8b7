import Digitiz.KeyNames
import Digitiz.MessageCodecs
import Digitiz.Shortcuts
import Digitiz.TextCuts

/-!
The key of a shortcut, from the editor to the host.

A name is cut to the 16 bytes of its field. Most names that are too long are not known before and
not known after; but the numbers of function keys and of the keys of the number pad may be written
with any number of zeros, so that what is left of a long name can be the name of another key.
-/

namespace Digitiz.KeyWire

open Wire TextLines TextCuts

/-! ### Numbers of keys -/

lemma digitsValue_eq {d : List UInt8} (h : ∀ c ∈ d, isDigit c = true) :
    digitsValue d = d.foldl (fun v c => v * 10 + (c.toNat - 48)) 0 := by
  rw [digitsValue, List.takeWhile_eq_self_iff.mpr h]

lemma foldl_digits (d : List UInt8) (v : ℕ) :
    d.foldl (fun v c => v * 10 + (c.toNat - 48)) v =
      v * 10 ^ d.length + d.foldl (fun v c => v * 10 + (c.toNat - 48)) 0 := by
  induction d generalizing v with
  | nil => simp
  | cons c d ih =>
    rw [List.foldl_cons, List.foldl_cons, ih, ih (0 * 10 + (c.toNat - 48)), List.length_cons]
    ring

/-- The digits at the front count by their place. -/
lemma digitsValue_append {d e : List UInt8} (h : ∀ c ∈ d ++ e, isDigit c = true) :
    digitsValue (d ++ e) = digitsValue d * 10 ^ e.length + digitsValue e := by
  rw [digitsValue_eq h, digitsValue_eq fun c hc => h c (List.mem_append_left e hc),
    digitsValue_eq fun c hc => h c (List.mem_append_right d hc), List.foldl_append, foldl_digits]

lemma digitsValue_eq_zero {d : List UInt8} (h : ∀ c ∈ d, isDigit c = true)
    (hzero : digitsValue d = 0) : d = List.replicate d.length 48 := by
  induction d with
  | nil => rfl
  | cons c d ih =>
    have hsplit := digitsValue_append (d := [c]) (e := d) h
    have hc := isDigit_iff.mp (h c List.mem_cons_self)
    have hone : digitsValue [c] = c.toNat - 48 := by
      rw [digitsValue_eq (List.forall_mem_singleton.mpr (h c List.mem_cons_self)),
        List.foldl_cons, List.foldl_nil, Nat.zero_mul, Nat.zero_add]
    rw [List.singleton_append, hzero, hone] at hsplit
    have hpow : 0 < 10 ^ d.length := Nat.pow_pos (by omega)
    obtain ⟨hprod, hrest⟩ := Nat.add_eq_zero_iff.mp hsplit.symm
    have hc48 : c.toNat = 48 := by
      obtain h0 | h0 := Nat.mul_eq_zero.mp hprod <;> omega
    rw [List.length_cons, List.replicate_succ, ← ih (fun e he => h e (List.mem_cons_of_mem _ he))
      hrest]
    exact congrArg (· :: d) (UInt8.toNat_inj.mp hc48)

/-- The digits are read to their number, unless it is too large. -/
lemma parseDigits_eq_some {last value v : ℕ} (d : List UInt8) (hvalue : value ≤ last) :
    parseDigits last value d = some v ↔ (∀ c ∈ d, isDigit c = true) ∧
      v = d.foldl (fun v c => v * 10 + (c.toNat - 48)) value ∧ v ≤ last := by
  induction d generalizing value with
  | nil =>
    simp only [parseDigits, Option.some.injEq, List.not_mem_nil, false_imp_iff, implies_true,
      List.foldl_nil, true_and]
    constructor
    · rintro rfl
      exact ⟨rfl, hvalue⟩
    · exact fun h => h.1.symm
  | cons c d ih =>
    have hdigit : (c < 0x30 ∨ c > 0x39) ↔ ¬ isDigit c = true := by
      rw [isDigit_iff, UInt8.lt_iff_toNat_lt, gt_iff_lt, UInt8.lt_iff_toNat_lt]
      simp only [UInt8.reduceToNat]
      omega
    have hstep : parseDigits last value (c :: d) = if c < 0x30 ∨ c > 0x39 then none
        else if value * 10 + (c.toNat - 48) > last then none
        else parseDigits last (value * 10 + (c.toNat - 48)) d := rfl
    rw [hstep, List.foldl_cons, List.forall_mem_cons]
    split_ifs with hc hlast
    · exact iff_of_false nofun fun h => (hdigit.mp hc) h.1.1
    · -- the number only grows from here
      refine iff_of_false nofun fun h => ?_
      have hgrow := foldl_digits d (value * 10 + (c.toNat - 48))
      have hpow : 0 < 10 ^ d.length := Nat.pow_pos (by omega)
      have hmul := Nat.le_mul_of_pos_right (value * 10 + (c.toNat - 48)) hpow
      have := h.2.1
      have := h.2.2
      omega
    · rw [ih (not_lt.mp hlast), and_iff_right (not_not.mp (mt hdigit.mpr hc))]

/-- Digits that make a number in the range. -/
structure Number (first last : ℕ) (d : List UInt8) : Prop where
  ne_nil : d ≠ []
  digits : ∀ c ∈ d, isDigit c = true
  first_le : first ≤ digitsValue d
  le_last : digitsValue d ≤ last

/-- The name is that stem and a number in the range. -/
def Indexed (stem : String) (first last : ℕ) (name : List UInt8) : Prop :=
  ∃ d, name = ascii stem ++ d ∧ Number first last d

lemma parseIndexed_eq_some {name : List UInt8} {stem : String} {first last : ℕ}
    {base code : UInt16} : parseIndexed name stem first last base = some code ↔
      ∃ d, name = ascii stem ++ d ∧ Number first last d ∧
        code = base + UInt16.ofNat (digitsValue d - first) := by
  unfold parseIndexed
  split_ifs with hno
  · refine iff_of_false nofun ?_
    rintro ⟨d, rfl, hd, -⟩
    have := List.length_pos_iff.mpr hd.ne_nil
    simp only [List.isPrefixOf_iff_prefix.mpr (List.prefix_append _ d), Bool.not_true,
      Bool.false_eq_true, List.length_append, false_or] at hno
    omega
  · obtain ⟨hpre, hlen⟩ := not_or.mp hno
    obtain ⟨d, rfl⟩ : ascii stem <+: name := by simpa using hpre
    have hd : d ≠ [] := by
      rintro rfl
      simp at hlen
    rw [List.drop_left]
    have hparse : ∀ v, parseDigits last 0 d = some v ↔ _ := fun v =>
      parseDigits_eq_some d (Nat.zero_le last)
    constructor
    · intro h
      cases hv : parseDigits last 0 d with
      | none =>
        rw [hv] at h
        exact absurd h nofun
      | some v =>
        obtain ⟨hdigits, hvalue, hle⟩ := (hparse v).mp hv
        rw [← digitsValue_eq hdigits] at hvalue
        subst hvalue
        rw [hv] at h
        dsimp only at h
        split_ifs at h with hfirst
        exact ⟨d, rfl, ⟨hd, hdigits, not_lt.mp hfirst, hle⟩, (Option.some.inj h).symm⟩
    · rintro ⟨e, he, hnum, rfl⟩
      obtain rfl := List.append_cancel_left he
      rw [(hparse (digitsValue d)).mpr ⟨hnum.digits, digitsValue_eq hnum.digits, hnum.le_last⟩]
      exact if_neg (not_lt.mpr hnum.first_le)

lemma Number.parseIndexed {first last : ℕ} {d : List UInt8} (h : Number first last d)
    (stem : String) (base : UInt16) : parseIndexed (ascii stem ++ d) stem first last base =
      some (base + UInt16.ofNat (digitsValue d - first)) :=
  parseIndexed_eq_some.mpr ⟨d, rfl, h, rfl⟩

lemma parseIndexed_eq_none {name : List UInt8} {stem : String} {first last : ℕ} {base : UInt16} :
    parseIndexed name stem first last base = none ↔ ¬ Indexed stem first last name := by
  rw [← not_iff_not, ← Ne, Option.ne_none_iff_exists', not_not]
  constructor
  · rintro ⟨code, hcode⟩
    obtain ⟨d, hd, hnum, -⟩ := parseIndexed_eq_some.mp hcode
    exact ⟨d, hd, hnum⟩
  · rintro ⟨d, rfl, hnum⟩
    exact ⟨_, hnum.parseIndexed stem base⟩

/-- Different numbers are different keys. -/
lemma digitsValue_of_code {first last : ℕ} {base : UInt16} {d e : List UInt8}
    (hlast : last < 2 ^ 16) (hd : Number first last d) (he : Number first last e)
    (h : base + UInt16.ofNat (digitsValue d - first) =
      base + UInt16.ofNat (digitsValue e - first)) : digitsValue d = digitsValue e := by
  have hnat := congrArg UInt16.toNat (add_left_cancel h)
  rw [UInt16.toNat_ofNat', UInt16.toNat_ofNat'] at hnat
  have := hd.first_le
  have := hd.le_last
  have := he.first_le
  have := he.le_last
  omega

lemma digitsValue_zeros (n : ℕ) : digitsValue (List.replicate n 48) = 0 := by
  induction n with
  | zero => rfl
  | succ n ih =>
    have hdigit : ∀ c ∈ [(48 : UInt8)] ++ List.replicate n 48, isDigit c = true := by
      intro c hc
      rw [List.singleton_append, ← List.replicate_succ] at hc
      rw [List.eq_of_mem_replicate hc]
      rfl
    have hsplit := digitsValue_append hdigit
    have hone : digitsValue [48] = 0 := rfl
    rw [List.singleton_append, ih, hone, Nat.zero_mul] at hsplit
    rw [List.replicate_succ, hsplit]

lemma indexed_append_iff {stem : String} {first last : ℕ} {d : List UInt8} :
    Indexed stem first last (ascii stem ++ d) ↔ Number first last d := by
  constructor
  · rintro ⟨d', hd, hnum⟩
    exact List.append_cancel_left hd ▸ hnum
  · exact fun hnum => ⟨d, rfl, hnum⟩

/-- However many zeros are written, they are the first key of a range that begins with zero. -/
lemma parseIndexed_zeros {stem : String} {last m : ℕ} {base : UInt16} (hm : 0 < m) :
    parseIndexed (ascii stem ++ List.replicate m 48) stem 0 last base =
      some (base + UInt16.ofNat 0) := by
  have hnum : Number 0 last (List.replicate m 48) := by
    refine ⟨?_, fun c hc => ?_, Nat.zero_le _, ?_⟩
    · exact List.ne_nil_of_length_pos (by rwa [List.length_replicate])
    · rw [List.eq_of_mem_replicate hc]
      rfl
    · rw [digitsValue_zeros]
      exact Nat.zero_le last
  rw [hnum.parseIndexed, digitsValue_zeros]

/-- Only zeros are worth the same without the last of them. -/
lemma Number.eq_zeros {first last n : ℕ} {d : List UInt8} (hd : Number first last d)
    (hlen : n < d.length) (h : digitsValue (d.take n) = digitsValue d) :
    first = 0 ∧ d = List.replicate d.length 48 := by
  have hsplit := digitsValue_append (d := d.take n) (e := d.drop n)
    (by rw [List.take_append_drop]; exact hd.digits)
  rw [List.take_append_drop] at hsplit
  have hpow : 10 ≤ 10 ^ (d.drop n).length := by
    refine Nat.le_self_pow ?_ 10
    rw [List.length_drop]
    omega
  have hmul := Nat.mul_le_mul_left (digitsValue (d.take n)) hpow
  have hzero : digitsValue d = 0 := by omega
  refine ⟨?_, digitsValue_eq_zero hd.digits hzero⟩
  have := hd.first_le
  omega

/-- **A number that loses digits** is another number, or zero as before. -/
theorem parseIndexed_take_iff {stem : String} {first last n : ℕ} {base : UInt16} {d : List UInt8}
    (hlast : last < 2 ^ 16) (hn : 0 < n) (hlen : n < d.length) :
    parseIndexed (ascii stem ++ d.take n) stem first last base =
        parseIndexed (ascii stem ++ d) stem first last base ↔
      ¬ Indexed stem first last (ascii stem ++ d) ∧
          ¬ Indexed stem first last (ascii stem ++ d.take n) ∨
        first = 0 ∧ d = List.replicate d.length 48 := by
  constructor
  · intro h
    by_cases hsome : Indexed stem first last (ascii stem ++ d) ∨
        Indexed stem first last (ascii stem ++ d.take n)
    · -- then both are numbers of the same key
      have hnone := fun name => @parseIndexed_eq_none name stem first last base
      have hiff : Indexed stem first last (ascii stem ++ d) ↔
          Indexed stem first last (ascii stem ++ d.take n) := by
        rw [← not_iff_not, ← hnone, ← hnone, h]
      have hd := indexed_append_iff.mp (hsome.elim id hiff.mpr)
      have ht := indexed_append_iff.mp (hsome.elim hiff.mp id)
      rw [hd.parseIndexed, ht.parseIndexed] at h
      exact Or.inr (hd.eq_zeros hlen (digitsValue_of_code hlast ht hd (Option.some.inj h)))
    · exact Or.inl (not_or.mp hsome)
  · rintro (⟨hd, ht⟩ | ⟨rfl, hd⟩)
    · rw [parseIndexed_eq_none.mpr hd, parseIndexed_eq_none.mpr ht]
    · rw [hd, List.take_replicate, parseIndexed_zeros (by omega), parseIndexed_zeros (by omega)]

/-! ### Names that are too long -/

lemma kNamedKeys_short : ∀ k ∈ kNamedKeys, (ascii k.1).length ≤ 14 := by decide

lemma keyNameToCode_long {name : List UInt8} (h : 14 < name.length) :
    keyNameToCode name =
      (parseIndexed name "f" 1 24 vkF1).or (parseIndexed name "numpad" 0 9 vkNumpad0) := by
  have hnone : kNamedKeys.find? (fun k => ascii k.1 = name) = none := by
    refine List.find?_eq_none.mpr fun k hk => ?_
    have := kNamedKeys_short k hk
    simp only [decide_eq_true_eq]
    rintro rfl
    omega
  match name, h with
  | c :: c' :: rest, _ =>
    rw [keyNameToCode, hnone, Option.map_none, Option.or_none]
    all_goals simp

/-- A name that does not begin like that is none of those keys. -/
lemma not_indexed {stem : String} {first last : ℕ} {name : List UInt8}
    (h : ¬ ascii stem <+: name) : ¬ Indexed stem first last name := by
  rintro ⟨d, rfl, -⟩
  exact h (List.prefix_append _ d)

/-- What the host makes of a name is not changed when the name is cut: it fits, or neither it nor
what is left of it is a function key or a key of the number pad, or it is the first of these
written with zeros only. -/
def CutKeepsKey (k : List UInt8) : Prop :=
  k.length ≤ kKeyNameBytes ∨
    (¬ Indexed "f" 1 24 k ∧ ¬ Indexed "f" 1 24 (k.take kKeyNameBytes) ∧
      ¬ Indexed "numpad" 0 9 k ∧ ¬ Indexed "numpad" 0 9 (k.take kKeyNameBytes)) ∨
    ∃ n, k = ascii "numpad" ++ List.replicate n 48

lemma prefix_take_iff {l k : List UInt8} {n : ℕ} (h : l.length ≤ n) : l <+: k.take n ↔ l <+: k :=
  ⟨fun hl => hl.trans (List.take_prefix _ _), fun hl => List.prefix_take_iff.mpr ⟨hl, h⟩⟩

/-- A long name that is not spelled like a function key. -/
lemma keyNameToCode_of_not_f {k : List UInt8} (h : 14 < k.length) (hf : ¬ ascii "f" <+: k) :
    keyNameToCode k = parseIndexed k "numpad" 0 9 vkNumpad0 := by
  rw [keyNameToCode_long h, parseIndexed_eq_none.mpr (not_indexed hf), Option.none_or]

lemma keyNameToCode_of_not_numpad {k : List UInt8} (h : 14 < k.length)
    (hn : ¬ ascii "numpad" <+: k) : keyNameToCode k = parseIndexed k "f" 1 24 vkF1 := by
  rw [keyNameToCode_long h, parseIndexed_eq_none.mpr (not_indexed hn), Option.or_none]

lemma not_f_of_numpad {k : List UInt8} (h : ascii "numpad" <+: k) : ¬ ascii "f" <+: k := by
  obtain ⟨d, rfl⟩ := h
  rintro ⟨e, he⟩
  exact absurd (List.cons.inj he).1 (by decide)

/-- Ten digits are left of the number of a key of the number pad. -/
lemma numpad_take_iff {d : List UInt8} (hd : 10 < d.length) :
    keyNameToCode ((ascii "numpad" ++ d).take kKeyNameBytes) =
        keyNameToCode (ascii "numpad" ++ d) ↔ CutKeepsKey (ascii "numpad" ++ d) := by
  have hlong : kKeyNameBytes < (ascii "numpad" ++ d).length := by
    rw [List.length_append]
    exact Nat.add_lt_add_left hd 6
  have hk : kKeyNameBytes = 16 := rfl
  have htake : (ascii "numpad" ++ d).take kKeyNameBytes = ascii "numpad" ++ d.take 10 := rfl
  have hcut : 14 < (ascii "numpad" ++ d.take 10).length := by
    rw [List.length_append, List.length_take, Nat.min_eq_left hd.le]
    decide
  have hf := not_f_of_numpad (List.prefix_append (ascii "numpad") d)
  have hfcut := not_f_of_numpad (List.prefix_append (ascii "numpad") (d.take 10))
  rw [CutKeepsKey, or_iff_right (not_le.mpr hlong), htake,
    keyNameToCode_of_not_f (by omega) hf, keyNameToCode_of_not_f hcut hfcut,
    and_iff_right (not_indexed hf), and_iff_right (not_indexed hfcut),
    parseIndexed_take_iff (by decide) (by decide) hd, and_iff_right rfl]
  refine or_congr Iff.rfl ⟨fun h => ⟨_, congrArg _ h⟩, ?_⟩
  rintro ⟨n, hn⟩
  obtain rfl := List.append_cancel_left hn
  rw [List.length_replicate]

/-- Fifteen digits are left of the number of a function key. -/
lemma f_take_iff {d : List UInt8} (hd : 15 < d.length) :
    parseIndexed ((ascii "f" ++ d).take kKeyNameBytes) "f" 1 24 vkF1 =
        parseIndexed (ascii "f" ++ d) "f" 1 24 vkF1 ↔
      ¬ Indexed "f" 1 24 (ascii "f" ++ d) ∧
        ¬ Indexed "f" 1 24 ((ascii "f" ++ d).take kKeyNameBytes) := by
  have htake : (ascii "f" ++ d).take kKeyNameBytes = ascii "f" ++ d.take 15 := rfl
  rw [htake, parseIndexed_take_iff (by decide) (by decide) hd]
  exact or_iff_left fun h => absurd h.1 (by decide)

lemma keyNameToCode_take_iff (k : List UInt8) :
    keyNameToCode (k.take kKeyNameBytes) = keyNameToCode k ↔ CutKeepsKey k := by
  obtain hle | hlong := Nat.lt_or_ge kKeyNameBytes k.length |>.symm
  · rw [List.take_of_length_le hle]
    exact iff_of_true rfl (Or.inl hle)
  have hk : kKeyNameBytes = 16 := rfl
  by_cases hn : ascii "numpad" <+: k
  · obtain ⟨d, rfl⟩ := hn
    rw [List.length_append] at hlong
    exact numpad_take_iff (Nat.lt_of_add_lt_add_left hlong)
  -- what is left can only be a function key
  have hfcut := @prefix_take_iff (ascii "f") k kKeyNameBytes (by decide)
  have hncut := @prefix_take_iff (ascii "numpad") k kKeyNameBytes (by decide)
  have hcut : 14 < (k.take kKeyNameBytes).length := by
    rw [List.length_take]
    omega
  have hzeros : ¬ ∃ n, k = ascii "numpad" ++ List.replicate n 48 := by
    rintro ⟨n, rfl⟩
    exact hn (List.prefix_append _ _)
  rw [CutKeepsKey, or_iff_right (not_le.mpr hlong), keyNameToCode_of_not_numpad (by omega) hn,
    keyNameToCode_of_not_numpad hcut (mt hncut.mp hn), or_iff_left hzeros, ← and_assoc,
    and_iff_left ⟨not_indexed hn, not_indexed (mt hncut.mp hn)⟩]
  by_cases hf : ascii "f" <+: k
  · obtain ⟨d, rfl⟩ := hf
    rw [List.length_append] at hlong
    exact f_take_iff (Nat.lt_of_add_lt_add_left hlong)
  · have hnone : ¬ Indexed "f" 1 24 k := not_indexed hf
    have hnoneCut : ¬ Indexed "f" 1 24 (k.take kKeyNameBytes) := not_indexed (mt hfcut.mp hf)
    rw [parseIndexed_eq_none.mpr hnone, parseIndexed_eq_none.mpr hnoneCut]
    exact iff_of_true rfl ⟨hnone, hnoneCut⟩

/-! ### Over the wire -/

/-- **What arrives** is the message with its name cut. -/
theorem decode_payload (m : Key) (h : 0 ∉ m.key) :
    Key.decode m.payload = some { m with key := m.key.take kKeyNameBytes } := by
  have hsame : m.payload = Key.payload { m with key := m.key.take kKeyNameBytes } := by
    rw [Key.payload, Key.payload, Codec.writer_fixedStr_take]
  rw [hsame]
  exact Key.strict.lossless _ ⟨List.length_take_le _ _, fun hm => h (List.mem_of_mem_take hm)⟩

/-- The host makes of the key it receives what it would make of the one that was sent. -/
def MeansTheSame (k : List UInt8) : Prop :=
  ∀ m : Key, m.key = k → ∃ got, Key.decode m.payload = some got ∧
    keyNameToCode got.key = keyNameToCode k

/-- **A key means the same on both sides** exactly when cutting its name keeps it. -/
theorem meansTheSame_iff (k : List UInt8) (h0 : 0 ∉ k) : MeansTheSame k ↔ CutKeepsKey k := by
  rw [← keyNameToCode_take_iff]
  constructor
  · intro h
    obtain ⟨got, hgot, hcode⟩ := h { key := k } rfl
    rw [decode_payload _ h0] at hgot
    rwa [← Option.some.inj hgot] at hcode
  · rintro h m rfl
    exact ⟨_, decode_payload m h0, h⟩

theorem meansTheSame_multiply : MeansTheSame (ascii "numpadmultiply") :=
  (meansTheSame_iff (ascii "numpadmultiply") (by decide)).mpr (Or.inl (by decide))

open Shortcuts in
/-- **Numbers with many zeros.** They can be typed and stored, and press another key, or none that
is known. -/
theorem zeros_press_another_key :
    parseKeyName asciiLower (utf16 "Numpad00000000005") = utf16 "numpad00000000005" ∧
      keyNameToCode (ascii "numpad00000000005") = some (vkNumpad0 + 5) ∧
      (Key.decode (Key.payload { key := ascii "numpad00000000005" })).map
        (keyNameToCode ·.key) = some (some vkNumpad0) ∧
      ¬ MeansTheSame (ascii "numpad00000000005") ∧
      keyNameToCode (ascii "f0000000000000012x") = none ∧
      (Key.decode (Key.payload { key := ascii "f0000000000000012x" })).map
        (keyNameToCode ·.key) = some (some vkF1) := by
  have hcode : keyNameToCode (ascii "numpad00000000005") = some (vkNumpad0 + 5) := by decide
  have hgot := decode_payload { key := ascii "numpad00000000005" } (by decide)
  have hother := decode_payload { key := ascii "f0000000000000012x" } (by decide)
  refine ⟨by decide, hcode, ?_, fun h => ?_, by decide, ?_⟩
  · rw [hgot]
    decide
  · obtain ⟨got, hdecode, hsame⟩ := h { key := ascii "numpad00000000005" } rfl
    rw [hgot] at hdecode
    rw [← Option.some.inj hdecode, hcode] at hsame
    revert hsame
    decide
  · rw [hother]
    decide

end Digitiz.KeyWire
