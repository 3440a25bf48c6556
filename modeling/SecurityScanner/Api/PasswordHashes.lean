import SecurityScanner.Api.Accounts

/-!
# Password hashes

`hash_password` and `verify_password` of `executor/api/auth.py`. PBKDF2 is a parameter. A stored
hash names its algorithm, rounds and salt, and `verify_password` reads them back from the text.
-/

namespace SecurityScanner.Auth

/-- `_PBKDF2_ROUNDS`. -/
def pbkdf2Rounds : Nat := 240000

section hex

def hexDigits : List Char :=
  ['0', '1', '2', '3', '4', '5', '6', '7', '8', '9', 'a', 'b', 'c', 'd', 'e', 'f']

/-- `bytes.hex`. -/
def hex (bytes : List UInt8) : List Char :=
  bytes.flatMap fun b => [hexDigits.getD (b.toNat / 16) '0', hexDigits.getD (b.toNat % 16) '0']

def hexValue (c : Char) : Option Nat :=
  if '0' ≤ c ∧ c ≤ '9' then some (c.toNat - 48)
  else if 'a' ≤ c ∧ c ≤ 'f' then some (c.toNat - 87)
  else if 'A' ≤ c ∧ c ≤ 'F' then some (c.toNat - 55)
  else none

/-- `Py_ISSPACE`. -/
def isAsciiSpace (c : Char) : Bool := c = ' ' || (9 ≤ c.toNat && c.toNat ≤ 13)

/-- `bytes.fromhex`: whitespace may stand before a byte. -/
def fromHex : List Char → Option (List UInt8)
  | [] => some []
  | [c] => if isAsciiSpace c then some [] else none
  | c :: d :: cs =>
    if isAsciiSpace c then fromHex (d :: cs)
    else do
      let high ← hexValue c
      let low ← hexValue d
      let bytes ← fromHex cs
      pure (UInt8.ofNat (16 * high + low) :: bytes)

/-- The digits of `int(text)`, between which single underscores may stand. -/
def decimalDigits : Nat → List Char → Option Nat
  | n, [] => some n
  | n, '_' :: c :: cs => if c.isDigit then decimalDigits (10 * n + (c.toNat - 48)) cs else none
  | n, c :: cs => if c.isDigit then decimalDigits (10 * n + (c.toNat - 48)) cs else none

/-- `int(text)` of a text in ASCII. -/
def int (text : List Char) : Option Int :=
  let digits (cs : List Char) : Option Nat :=
    if cs.head?.any Char.isDigit then decimalDigits 0 cs else none
  match Python.strip (String.ofList text) with
  | '-' :: cs => (digits cs).map fun n => -(n : Int)
  | '+' :: cs => (digits cs).map Int.ofNat
  | cs => (digits cs).map Int.ofNat

end hex

section passwords

variable (kdf : String → List UInt8 → Nat → List UInt8)

/-- `hash_password`, for the salt that it draws. -/
def hashPassword (password : String) (salt : List UInt8) : String :=
  String.ofList ("pbkdf2_sha256".toList ++ '$' :: ((toString pbkdf2Rounds).toList ++ '$' ::
    (hex salt ++ '$' :: hex (kdf password salt pbkdf2Rounds))))

/-- `verify_password`. What raises in it, a wrong number of parts or of rounds, counts as a wrong
password. -/
def verifyPassword (password stored : String) : Bool :=
  match stored.toList.splitOn '$' with
  | [algo, rounds, saltHex, hashHex] =>
    if algo ≠ "pbkdf2_sha256".toList then false
    else
      match fromHex saltHex, int rounds with
      | some salt, some rounds =>
        if 1 ≤ rounds ∧ rounds ≤ 2147483647 then hex (kdf password salt rounds.toNat) == hashHex
        else false
      | _, _ => false
  | _ => false

/-- The salt of a call is made of what `os.urandom` draws. -/
def Passwords.pbkdf2 (urandom : String → List UInt8) : Passwords where
  hash password salt := hashPassword kdf password (urandom salt)
  verify := verifyPassword kdf

end passwords

section roundTrip

lemma hexValue_digit : ∀ n < 16, hexValue (hexDigits.getD n '0') = some n := by decide

lemma digit_plain : ∀ n < 16, isAsciiSpace (hexDigits.getD n '0') = false ∧
    hexDigits.getD n '0' ≠ '$' := by decide

lemma fromHex_hex (bytes : List UInt8) : fromHex (hex bytes) = some bytes := by
  induction bytes with
  | nil => rfl
  | cons b bytes ih =>
    have hb : b.toNat < 256 := b.toNat_lt
    have hhigh : b.toNat / 16 < 16 := by omega
    have hlow : b.toNat % 16 < 16 := by omega
    have hbyte : 16 * (b.toNat / 16) + b.toNat % 16 = b.toNat := by omega
    change fromHex (hexDigits.getD (b.toNat / 16) '0' :: hexDigits.getD (b.toNat % 16) '0' ::
      hex bytes) = _
    rw [fromHex, (digit_plain _ hhigh).1, if_neg Bool.false_ne_true, hexValue_digit _ hhigh,
      hexValue_digit _ hlow, ih]
    change some (UInt8.ofNat (16 * (b.toNat / 16) + b.toNat % 16) :: bytes) = _
    rw [hbyte, UInt8.ofNat_toNat]

lemma hex_injective : Function.Injective hex := by
  intro bytes bytes' h
  exact Option.some.inj ((fromHex_hex bytes).symm.trans (h ▸ fromHex_hex bytes'))

lemma dollar_notMem_hex (bytes : List UInt8) : '$' ∉ hex bytes := by
  intro h
  obtain ⟨b, -, hb⟩ := List.mem_flatMap.mp h
  have hlt : b.toNat < 256 := b.toNat_lt
  rcases List.mem_cons.mp hb with hb | hb
  · exact (digit_plain (b.toNat / 16) (by omega)).2 hb.symm
  · exact (digit_plain (b.toNat % 16) (by omega)).2 (List.mem_singleton.mp hb).symm

/-- A password is right for a hash exactly when PBKDF2 does not tell it from the one that the hash
was made of. -/
lemma verifyPassword_hashPassword (kdf : String → List UInt8 → Nat → List UInt8)
    (password given : String) (salt : List UInt8) :
    verifyPassword kdf given (hashPassword kdf password salt) = true ↔
      kdf given salt pbkdf2Rounds = kdf password salt pbkdf2Rounds := by
  have hint : int (toString pbkdf2Rounds).toList = some (pbkdf2Rounds : Int) := by decide +kernel
  have hrounds : (1 : Int) ≤ pbkdf2Rounds ∧ (pbkdf2Rounds : Int) ≤ 2147483647 := by decide
  unfold verifyPassword hashPassword
  rw [String.toList_ofList, List.splitOn_append_cons_self_of_not_mem (by decide +kernel),
    List.splitOn_append_cons_self_of_not_mem (by decide +kernel),
    List.splitOn_append_cons_self_of_not_mem (dollar_notMem_hex salt),
    List.splitOn_eq_singleton (dollar_notMem_hex _)]
  dsimp only
  rw [if_neg (not_not.mpr rfl), fromHex_hex, hint]
  dsimp only
  rw [if_pos hrounds, Int.toNat_natCast, beq_iff_eq, hex_injective.eq_iff]

end roundTrip

end SecurityScanner.Auth
