import Gazette.Proofs.Text.Encoding

/-!
# Encoded texts are read back

A reader of bytes gets back every text that was written in them (`Utf8.items_encode`), since the
bytes of each character lead it from between two characters to there again. So percent encoded texts
are read back as the path or a field of a query holds them, and a query is read field by field.
-/

namespace Gazette.Text

/-! ### Bytes -/

namespace Utf8

theorem start_one {n : Nat} (h : n < 0x80) :
    start (UInt8.ofNat n) = ([some (Char.ofNat n)], none) := by
  have hbyte : (UInt8.ofNat n).toNat = n := by
    rw [UInt8.toNat_ofNat', Nat.mod_eq_of_lt (by omega)]
  unfold start
  dsimp only
  rw [hbyte, if_pos h]

theorem start_two {k : Nat} (h : k < 0x20) (hlow : 2 ≤ k) :
    start (UInt8.ofNat (k + 0xC0)) = ([], some ⟨1, 0x80, 0xBF, k⟩) := by
  have hall : ∀ k < 0x20, 2 ≤ k →
      start (UInt8.ofNat (k + 0xC0)) = ([], some ⟨1, 0x80, 0xBF, k⟩) := by decide
  exact hall k h hlow

theorem start_three {k : Nat} (h : k < 0x10) :
    start (UInt8.ofNat (k + 0xE0)) =
      ([], some ⟨2, if k = 0 then 0xA0 else 0x80, if k = 0xD then 0x9F else 0xBF, k⟩) := by
  have hall : ∀ k < 0x10, start (UInt8.ofNat (k + 0xE0)) =
      ([], some ⟨2, if k = 0 then 0xA0 else 0x80, if k = 0xD then 0x9F else 0xBF, k⟩) := by decide
  exact hall k h

theorem start_four {k : Nat} (h : k < 5) :
    start (UInt8.ofNat (k + 0xF0)) =
      ([], some ⟨3, if k = 0 then 0x90 else 0x80, if k = 4 then 0x8F else 0xBF, k⟩) := by
  have hall : ∀ k < 5, start (UInt8.ofNat (k + 0xF0)) =
      ([], some ⟨3, if k = 0 then 0x90 else 0x80, if k = 4 then 0x8F else 0xBF, k⟩) := by decide
  exact hall k h

theorem itemsFrom_of_start {byte : UInt8} {reading : Partial}
    (h : start byte = ([], some reading)) (rest : List UInt8) :
    itemsFrom none (byte :: rest) = itemsFrom (some reading) rest := by
  rw [itemsFrom, step, h]
  rfl

section Tail

variable {needed bits t : Nat} {low high : UInt8} (ht : t < 0x40)
  (hbounds : low.toNat ≤ t + 0x80 ∧ t + 0x80 ≤ high.toNat)

include ht hbounds

/-- A byte behind the first one adds six bits. -/
theorem step_tail :
    step (some ⟨needed, low, high, bits⟩) (UInt8.ofNat (t + 0x80)) =
      if needed ≤ 1 then ([some (Char.ofNat (bits * 0x40 + t))], none)
      else ([], some ⟨needed - 1, 0x80, 0xBF, bits * 0x40 + t⟩) := by
  have hbyte : (UInt8.ofNat (t + 0x80)).toNat = t + 0x80 := by
    rw [UInt8.toNat_ofNat', Nat.mod_eq_of_lt (by omega)]
  have hbits : (t + 0x80) % 0x40 = t := by omega
  have hbetween : low ≤ UInt8.ofNat (t + 0x80) ∧ UInt8.ofNat (t + 0x80) ≤ high := by
    rw [UInt8.le_iff_toNat_le, UInt8.le_iff_toNat_le, hbyte]
    exact hbounds
  rw [step]
  dsimp only
  rw [if_pos hbetween, hbyte, hbits]

theorem itemsFrom_tail (hneeded : 1 < needed) (rest : List UInt8) :
    itemsFrom (some ⟨needed, low, high, bits⟩) (UInt8.ofNat (t + 0x80) :: rest) =
      itemsFrom (some ⟨needed - 1, 0x80, 0xBF, bits * 0x40 + t⟩) rest := by
  rw [itemsFrom, step_tail ht hbounds, if_neg (by omega)]
  rfl

theorem itemsFrom_last (rest : List UInt8) :
    itemsFrom (some ⟨1, low, high, bits⟩) (UInt8.ofNat (t + 0x80) :: rest) =
      some (Char.ofNat (bits * 0x40 + t)) :: itemsFrom none rest := by
  rw [itemsFrom, step_tail ht hbounds, if_pos (Nat.le_refl 1)]
  rfl

end Tail

theorem bounds_of_lt {t : Nat} (h : t < 0x40) :
    (0x80 : UInt8).toNat ≤ t + 0x80 ∧ t + 0x80 ≤ (0xBF : UInt8).toNat :=
  ⟨Nat.le_add_left 0x80 t, Nat.add_le_add_right (Nat.le_of_lt_succ h) 0x80⟩

/-- The bounds of a byte behind the first one, when others are to be kept out. -/
theorem bounds_of_imp {t : Nat} {p q : Prop} [Decidable p] [Decidable q] {low high : UInt8}
    (h : t < 0x40) (hlow : p → low.toNat ≤ t + 0x80) (hhigh : q → t + 0x80 ≤ high.toNat) :
    (if p then low else 0x80).toNat ≤ t + 0x80 ∧ t + 0x80 ≤ (if q then high else 0xBF).toNat := by
  constructor
  · split
    · next hp => exact hlow hp
    · exact (bounds_of_lt h).1
  · split
    · next hq => exact hhigh hq
    · exact (bounds_of_lt h).2

/-- The bytes of a character are read as the character. There is a case for each number of bytes. -/
theorem itemsFrom_encodeChar (c : Char) (rest : List UInt8) :
    itemsFrom none (String.utf8EncodeChar c ++ rest) = some c :: itemsFrom none rest := by
  have hvalid : c.toNat < 0xD800 ∨ 0xDFFF < c.toNat ∧ c.toNat < 0x110000 := c.valid
  have hchar : ∀ n, n = c.toNat → some (Char.ofNat n) = some c := by
    rintro n rfl
    rw [Char.ofNat_toNat]
  have htail : ∀ n, n % 0x40 < 0x40 := fun n => Nat.mod_lt n (by decide)
  have hplain := fun n => bounds_of_lt (htail n)
  unfold String.utf8EncodeChar
  change itemsFrom none ((if c.toNat ≤ _ then _ else if c.toNat ≤ _ then _ else
    if c.toNat ≤ _ then _ else _) ++ rest) = _
  split
  · change itemsFrom none (UInt8.ofNat c.toNat :: rest) = _
    rw [itemsFrom, step, start_one (by omega), Char.ofNat_toNat]
    rfl
  · split
    · change itemsFrom none (UInt8.ofNat (c.toNat / 64 % 32 + 0xC0) ::
        UInt8.ofNat (c.toNat % 64 + 0x80) :: rest) = _
      rw [itemsFrom_of_start (start_two (by omega) (by omega)),
        itemsFrom_last (htail _) (hplain _), hchar _ (by omega)]
    · split
      · change itemsFrom none (UInt8.ofNat (c.toNat / 4096 % 16 + 0xE0) ::
          UInt8.ofNat (c.toNat / 64 % 64 + 0x80) :: UInt8.ofNat (c.toNat % 64 + 0x80) :: rest) = _
        have hsecond := @bounds_of_imp (c.toNat / 64 % 64) (c.toNat / 4096 % 16 = 0)
          (c.toNat / 4096 % 16 = 0xD) _ _ 0xA0 0x9F (htail _)
          (fun h => show 0xA0 ≤ _ by omega) (fun h => show _ ≤ 0x9F by omega)
        rw [itemsFrom_of_start (start_three (by omega)), itemsFrom_tail (htail _) hsecond (by decide),
          itemsFrom_last (htail _) (hplain _), hchar _ (by omega)]
      · change itemsFrom none (UInt8.ofNat (c.toNat / 262144 % 8 + 0xF0) ::
          UInt8.ofNat (c.toNat / 4096 % 64 + 0x80) :: UInt8.ofNat (c.toNat / 64 % 64 + 0x80) ::
          UInt8.ofNat (c.toNat % 64 + 0x80) :: rest) = _
        have hsecond := @bounds_of_imp (c.toNat / 4096 % 64) (c.toNat / 262144 % 8 = 0)
          (c.toNat / 262144 % 8 = 4) _ _ 0x90 0x8F (htail _)
          (fun h => show 0x90 ≤ _ by omega) (fun h => show _ ≤ 0x8F by omega)
        rw [itemsFrom_of_start (start_four (by omega)), itemsFrom_tail (htail _) hsecond (by decide),
          itemsFrom_tail (htail _) (hplain _) (by decide), itemsFrom_last (htail _) (hplain _),
          hchar _ (by omega)]

theorem items_encode (s : List Char) : items (encode s) = s.map some := by
  unfold items
  induction s with
  | nil => rfl
  | cons c s ih => rw [encode_cons, itemsFrom_encodeChar, ih, List.map_cons]

theorem decode?_encode (s : List Char) : decode? (encode s) = some s := by
  rw [decode?, items_encode]
  induction s with
  | nil => rfl
  | cons c s ih =>
    rw [List.map_cons, List.mapM_cons, ih]
    rfl

theorem decodeLossy_encode (s : List Char) : decodeLossy (encode s) = s := by
  rw [decodeLossy, items_encode, List.map_map]
  exact List.map_id s

theorem encode_of_lt {s : List Char} (h : ∀ c ∈ s, c.toNat < 0x80) :
    encode s = s.map fun c => UInt8.ofNat c.toNat := by
  induction s with
  | nil => rfl
  | cons c s ih =>
    rw [encode_cons, encodeChar_of_lt (h c List.mem_cons_self),
      ih fun d hd => h d (List.mem_cons_of_mem c hd)]
    rfl

theorem ofNat_toNat_notMem_encode {s : List Char} (h : ∀ c ∈ s, c.toNat < 0x80) {c : Char}
    (hlt : c.toNat < 0x80) (hc : c ∉ s) : UInt8.ofNat c.toNat ∉ encode s := by
  rw [encode_of_lt h]
  intro hmem
  obtain ⟨d, hd, heq⟩ := List.mem_map.mp hmem
  have hdlt := h d hd
  have hnat := congrArg UInt8.toNat heq
  rw [UInt8.toNat_ofNat', UInt8.toNat_ofNat', Nat.mod_eq_of_lt (by omega),
    Nat.mod_eq_of_lt (by omega)] at hnat
  exact hc (Char.toNat_inj.mp hnat ▸ hd)

end Utf8

/-! ### Percent encoding -/

namespace Percent

theorem decode?_encode (s : List Char) : decode? (encode s) = some s := by
  rw [decode?, decodeBytes_encode, Utf8.decode?_encode]

/-- The bytes of an encoded text are those of unreserved characters and percent signs. -/
theorem ofNat_toNat_notMem_encode {c : Char} (hlt : c.toNat < 0x80) (hc : isUnreserved c = false)
    (hpercent : c ≠ '%') (s : List Char) : UInt8.ofNat c.toNat ∉ Utf8.encode (encode s) := by
  refine Utf8.ofNat_toNat_notMem_encode (fun d hd => ?_) hlt fun hmem => ?_
  · obtain hd | rfl := mem_encode hd
    · exact (isUnreserved_lt hd).1
    · decide
  · obtain h | h := mem_encode hmem
    · rw [hc] at h
      cases h
    · exact hpercent h

/-- Whether a text needs no encoding. -/
def IsPlain (s : List Char) : Prop := ∀ c ∈ s, isUnreserved c = true

theorem isUnreserved_of_isDigit {c : Char} (h : c.isDigit = true) : isUnreserved c = true := by
  simp [isUnreserved, Char.isAlphanum, h]

theorem isPlain_natDigits (n : Nat) : IsPlain (natDigits n) :=
  fun _ hc => isUnreserved_of_isDigit (isDigit_of_mem_natDigits hc)

namespace IsPlain

variable {s : List Char}

theorem notMem (h : IsPlain s) {c : Char} (hc : isUnreserved c = false) : c ∉ s := by
  intro hmem
  rw [h c hmem] at hc
  cases hc

theorem encode_eq (h : IsPlain s) : encode s = s := by
  induction s with
  | nil => rfl
  | cons c s ih =>
    have hhead : encodeChar c = [c] := if_pos (h c List.mem_cons_self)
    have htail := ih fun d hd => h d (List.mem_cons_of_mem c hd)
    rw [encode, List.flatMap_cons, hhead, ← encode, htail]
    rfl

end IsPlain

theorem decode?_of_isPlain {s : List Char} (h : IsPlain s) : decode? s = some s := by
  have hdecode := decode?_encode s
  rwa [h.encode_eq] at hdecode

end Percent

/-! ### Queries -/

namespace Query

open Percent (encode)

/-- A plus sign is encoded itself, so none is taken for a space. -/
theorem decodeField_encode (s : List Char) : decodeField (Utf8.encode (encode s)) = s := by
  have hplus : 0x2B ∉ Utf8.encode (encode s) :=
    @Percent.ofNat_toNat_notMem_encode '+' (by decide) (by decide) (by decide) s
  have hsame : ∀ byte ∈ Utf8.encode (encode s), (if byte = 0x2B then 0x20 else byte) = byte := by
    intro byte hbyte
    apply if_neg
    rintro rfl
    exact hplus hbyte
  rw [decodeField, List.map_congr_left hsame, List.map_id', Percent.decodeBytes_encode,
    Utf8.decodeLossy_encode]

theorem fieldBytes_ne_nil (bytes : List UInt8) : fieldBytes bytes ≠ [] := by
  cases bytes with
  | nil => exact List.cons_ne_nil _ _
  | cons byte bytes =>
    rw [fieldBytes]
    split
    · exact List.cons_ne_nil _ _
    · split <;> exact List.cons_ne_nil _ _

theorem fieldBytes_append_cons (a b : List UInt8) :
    fieldBytes (a ++ 0x26 :: b) = fieldBytes a ++ fieldBytes b := by
  induction a with
  | nil => rfl
  | cons byte a ih =>
    rw [List.cons_append, fieldBytes, fieldBytes, ih]
    split
    · rfl
    · cases hfields : fieldBytes a with
      | nil => exact absurd hfields (fieldBytes_ne_nil a)
      | cons field more => rfl

theorem fieldBytes_of_notMem {bytes : List UInt8} (h : 0x26 ∉ bytes) :
    fieldBytes bytes = [bytes] := by
  induction bytes with
  | nil => rfl
  | cons byte bytes ih =>
    have hbyte : byte ≠ 0x26 := fun heq => h (heq ▸ List.mem_cons_self)
    rw [fieldBytes, if_neg hbyte, ih fun hmem => h (List.mem_cons_of_mem byte hmem)]

/-- Queries with an ampersand between them are read one after the other. -/
theorem parse_append (s t : List Char) : parse (s ++ '&' :: t) = parse s ++ parse t := by
  have hampersand : String.utf8EncodeChar '&' = [0x26] := Utf8.encodeChar_of_lt (by decide)
  have hbytes : Utf8.encode (s ++ '&' :: t) = Utf8.encode s ++ 0x26 :: Utf8.encode t := by
    rw [Utf8.encode_append, Utf8.encode_cons, hampersand]
    rfl
  rw [parse, hbytes, fieldBytes_append_cons, List.filter_append, List.map_append]
  rfl

/-- A field is read back from its encoded name and value. -/
theorem parse_field (name value : List Char) :
    parse (encode name ++ '=' :: encode value) = [(String.ofList name, String.ofList value)] := by
  have hsign : String.utf8EncodeChar '=' = [0x3D] := Utf8.encodeChar_of_lt (by decide)
  have hbytes : Utf8.encode (encode name ++ '=' :: encode value) =
      Utf8.encode (encode name) ++ 0x3D :: Utf8.encode (encode value) := by
    rw [Utf8.encode_append, Utf8.encode_cons, hsign]
    rfl
  have hfield : 0x26 ∉ Utf8.encode (encode name) ++ 0x3D :: Utf8.encode (encode value) := by
    have hpart : ∀ s, 0x26 ∉ Utf8.encode (encode s) :=
      @Percent.ofNat_toNat_notMem_encode '&' (by decide) (by decide) (by decide)
    simp [hpart]
  have hname : ∀ byte ∈ Utf8.encode (encode name), (byte != 0x3D) = true := by
    have hequals : 0x3D ∉ Utf8.encode (encode name) :=
      @Percent.ofNat_toNat_notMem_encode '=' (by decide) (by decide) (by decide) name
    intro byte hbyte
    rw [bne_iff_ne]
    exact fun heq => hequals (heq ▸ hbyte)
  have hpair : nameAndValue (Utf8.encode (encode name) ++ 0x3D :: Utf8.encode (encode value)) =
      (String.ofList name, String.ofList value) := by
    rw [nameAndValue, List.takeWhile_append_of_pos hname, List.dropWhile_append_of_pos hname]
    simp [decodeField_encode]
  rw [parse, hbytes, fieldBytes_of_notMem hfield]
  simp [hpair]

/-! ### Queries that are written -/

def writeField (field : String × String) : List Char :=
  encode field.1.toList ++ '=' :: encode field.2.toList

/-- Fields with ampersands between them. -/
def write (fields : List (String × String)) : List Char :=
  ['&'].intercalate (fields.map writeField)

theorem write_singleton (field : String × String) : write [field] = writeField field :=
  List.intercalate_singleton

theorem write_cons_cons (field next : String × String) (rest : List (String × String)) :
    write (field :: next :: rest) = writeField field ++ '&' :: write (next :: rest) := by
  rw [write, List.map_cons, List.map_cons, List.intercalate_cons_cons, List.append_assoc]
  rfl

theorem parse_write (fields : List (String × String)) : parse (write fields) = fields := by
  have hfield : ∀ field, parse (writeField field) = [field] := by
    intro field
    rw [writeField, parse_field, String.ofList_toList, String.ofList_toList]
  induction fields with
  | nil => rfl
  | cons field rest ih =>
    cases rest with
    | nil => rw [write_singleton, hfield]
    | cons next rest => rw [write_cons_cons, parse_append, hfield, ih, List.singleton_append]

theorem mem_write {fields : List (String × String)} {c : Char} (h : c ∈ write fields) :
    Percent.isUnreserved c = true ∨ c ∈ ['%', '=', '&'] := by
  have hfield : ∀ field, c ∈ writeField field →
      Percent.isUnreserved c = true ∨ c ∈ ['%', '=', '&'] := by
    intro field hc
    obtain hc | hc := List.mem_append.mp hc
    · exact (Percent.mem_encode hc).imp_right fun heq => by simp [heq]
    · obtain rfl | hc := List.mem_cons.mp hc
      · exact .inr (by decide)
      · exact (Percent.mem_encode hc).imp_right fun heq => by simp [heq]
  induction fields with
  | nil => cases h
  | cons field rest ih =>
    cases rest with
    | nil =>
      rw [write_singleton] at h
      exact hfield field h
    | cons next rest =>
      rw [write_cons_cons] at h
      obtain h | h := List.mem_append.mp h
      · exact hfield field h
      · obtain rfl | h := List.mem_cons.mp h
        · exact .inr (by decide)
        · exact ih h

end Query

end Gazette.Text
