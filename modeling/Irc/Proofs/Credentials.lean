/-
What a server makes of a login.

A server puts the payloads together until one is below the limit, reads base64 and takes
account and password apart at the NULs.  Base64 comes in groups of four characters, so that no
part of a response is a lone `+`, and a lone `+` is always the mark for nothing.

* **`Base64.decode_encode`** — base64 is read back;
* **`Sasl.receive_payloads`** — the payloads end where the response does;
* **`Sasl.readPlain?_plainBytes`** — account and password are told apart;
* **`Sasl.credentials_received`** — a login arrives as it was sent.
-/
import Irc.Proofs.FrameLimit
import Irc.Proofs.Payloads

namespace Irc.Text.Base64

/-! ### Reading base64 -/

/-- The value of a character of the standard alphabet. -/
def value? (c : Char) : Option Nat :=
  if c.isUpper then some (c.toNat - 65)
  else if c.isLower then some (c.toNat - 71)
  else if c.isDigit then some (c.toNat + 4)
  else if c = '+' then some 62
  else if c = '/' then some 63
  else none

/-- The byte of the first two values of a group. -/
def firstByte (a b : Nat) : UInt8 := UInt8.ofNat (a * 4 + b / 16)

/-- The byte of the two values in the middle of a group. -/
def secondByte (b c : Nat) : UInt8 := UInt8.ofNat (b % 16 * 16 + c / 4)

/-- The byte of the last two values of a group. -/
def thirdByte (c d : Nat) : UInt8 := UInt8.ofNat (c % 4 * 64 + d)

/-- Four characters stand for three bytes.  The last group may be filled up with one or two `=`,
and then the bits that make up no byte are zero. -/
def decode : List Char → Option (List UInt8)
  | [] => some []
  | a :: b :: c :: d :: rest => do
    let a ← value? a
    let b ← value? b
    if d = '=' ∧ rest = [] then
      if c = '=' then
        if b % 16 = 0 then some [firstByte a b] else none
      else
        let c ← value? c
        if c % 4 = 0 then some [firstByte a b, secondByte b c] else none
    else
      let c ← value? c
      let d ← value? d
      let bytes ← decode rest
      some (firstByte a b :: secondByte b c :: thirdByte c d :: bytes)
  | _ => none

theorem value?_digit {n : Nat} (h : n < 64) : value? (digit n) = some n := by
  have hall : ∀ n < 64, value? (digit n) = some n := by decide
  exact hall n h

theorem digit_ne_pad {n : Nat} (h : n < 64) : digit n ≠ '=' := by
  intro hpad
  have hvalue := value?_digit h
  have hnone : value? '=' = none := by decide
  rw [hpad, hnone] at hvalue
  exact absurd hvalue (by simp)

section

variable (b : UInt8)

theorem firstByte_eq {k : Nat} (hk : k < 16) :
    firstByte (b.toNat / 4) (b.toNat % 4 * 16 + k) = b := by
  have hnat : b.toNat / 4 * 4 + (b.toNat % 4 * 16 + k) / 16 = b.toNat := by omega
  rw [firstByte, hnat, UInt8.ofNat_toNat]

theorem secondByte_eq (j : Nat) {k : Nat} (hk : k < 4) :
    secondByte (j * 16 + b.toNat / 16) (b.toNat % 16 * 4 + k) = b := by
  have hb := b.toNat_lt
  have hnat : (j * 16 + b.toNat / 16) % 16 * 16 + (b.toNat % 16 * 4 + k) / 4 = b.toNat := by omega
  rw [secondByte, hnat, UInt8.ofNat_toNat]

theorem thirdByte_eq (j : Nat) : thirdByte (j * 4 + b.toNat / 64) (b.toNat % 64) = b := by
  have hb := b.toNat_lt
  have hnat : (j * 4 + b.toNat / 64) % 4 * 64 + b.toNat % 64 = b.toNat := by omega
  rw [thirdByte, hnat, UInt8.ofNat_toNat]

end

/-- Base64 is read back as the bytes that were written. -/
theorem decode_encode (bytes : List UInt8) : decode (encode bytes) = some bytes := by
  induction bytes using encode.induct with
  | case1 => rfl
  | case2 a =>
    have ha := a.toNat_lt
    have hfirst := firstByte_eq a (k := 0) (by omega)
    rw [Nat.add_zero] at hfirst
    rw [encode, decode, value?_digit (by omega), value?_digit (by omega)]
    simp [hfirst]
  | case3 a b =>
    have ha := a.toNat_lt
    have hb := b.toNat_lt
    have hthird : digit (b.toNat % 16 * 4) ≠ '=' := digit_ne_pad (by omega)
    have hfirst := firstByte_eq a (k := b.toNat / 16) (by omega)
    have hsecond := secondByte_eq b (a.toNat % 4) (k := 0) (by omega)
    rw [Nat.add_zero] at hsecond
    rw [encode, decode, value?_digit (by omega), value?_digit (by omega),
      value?_digit (by omega)]
    simp [hthird, hfirst, hsecond]
  | case4 a b c rest ih =>
    have ha := a.toNat_lt
    have hb := b.toNat_lt
    have hc := c.toNat_lt
    have hlast : digit (c.toNat % 64) ≠ '=' := digit_ne_pad (by omega)
    have hfirst := firstByte_eq a (k := b.toNat / 16) (by omega)
    have hsecond := secondByte_eq b (a.toNat % 4) (k := c.toNat / 64) (by omega)
    have hthird := thirdByte_eq c (b.toNat % 16)
    rw [encode, decode, value?_digit (by omega), value?_digit (by omega),
      value?_digit (by omega), value?_digit (by omega), ih]
    simp [hlast, hfirst, hsecond, hthird]

/-- Base64 has four characters for every three bytes, and for what is left of them. -/
theorem length_encode (bytes : List UInt8) :
    (encode bytes).length = (bytes.length + 2) / 3 * 4 := by
  induction bytes using encode.induct with
  | case1 => rfl
  | case2 a => simp [encode]
  | case3 a b => simp [encode]
  | case4 a b c rest ih =>
    simp only [encode, List.length_cons, ih]
    omega

end Irc.Text.Base64

namespace Irc.Sasl

open Text

/-! ### Putting the payloads together -/

/-- The response that the payloads make up, to the first one that is below the limit, and the
payloads behind.  A lone `+` stands for nothing. -/
def receive : List String → Option (List Char × List String)
  | [] => none
  | payload :: rest =>
    let part := if payload = "+" then [] else payload.toList
    if payload.utf8ByteSize < payloadLimit then
      some (part, rest)
    else
      (receive rest).map fun (text, left) => (part ++ text, left)

theorem payloads_ne_nil (response : List Char) : payloads response ≠ [] := by
  rw [payloads]
  split_ifs <;> exact List.cons_ne_nil _ _

/-- All payloads but the last one are full. -/
theorem length_of_mem_dropLast_payloads {response piece : List Char}
    (h : piece ∈ (payloads response).dropLast) : piece.length = payloadLimit := by
  induction response using payloads.induct with
  | case1 =>
    rw [payloads, if_pos rfl] at h
    exact absurd h List.not_mem_nil
  | case2 response hne hlength =>
    rw [payloads, if_neg hne, if_pos hlength] at h
    exact absurd h List.not_mem_nil
  | case3 response hne hlength ih =>
    rw [payloads, if_neg hne, if_neg hlength, List.dropLast_cons_of_ne_nil (payloads_ne_nil _),
      List.mem_cons] at h
    rcases h with rfl | h
    · rw [List.length_take]
      omega
    · exact ih h

/-- The payloads end where the response does.  In groups of four characters no part of it is taken
for the mark for nothing. -/
theorem receive_payloads {response : List Char} (hsymbol : ∀ c ∈ response, Base64.IsSymbol c)
    (hgroups : 4 ∣ response.length) :
    receive ((payloads response).map String.ofList) = some (response, []) := by
  have hlimit : payloadLimit = 400 := rfl
  induction response using payloads.induct with
  | case1 =>
    rw [payloads, if_pos rfl]
    decide
  | case2 response hne hlength =>
    have hsize : (String.ofList response).utf8ByteSize = response.length := by
      rw [utf8ByteSize_ofList, Base64.byteLength_of_isSymbol hsymbol]
    -- a lone `+` is no group of four, so that the last part is never taken for the mark
    have hplus : String.ofList response ≠ "+" := by
      intro hplus
      rw [hplus] at hsize
      have hone : ("+" : String).utf8ByteSize = 1 := by decide
      omega
    rw [payloads, if_neg hne, if_pos hlength, List.map_singleton, receive, if_pos (by omega),
      if_neg hplus, String.toList_ofList]
  | case3 response hne hlength ih =>
    have htake : (response.take payloadLimit).length = payloadLimit := by
      rw [List.length_take]
      omega
    have hsize : (String.ofList (response.take payloadLimit)).utf8ByteSize = payloadLimit := by
      rw [utf8ByteSize_ofList, Base64.byteLength_of_isSymbol
        fun c hc => hsymbol c (List.mem_of_mem_take hc), htake]
    have hplus : String.ofList (response.take payloadLimit) ≠ "+" := by
      intro hplus
      rw [hplus] at hsize
      exact absurd hsize (by decide)
    have hrest := ih (fun c hc => hsymbol c (List.mem_of_mem_drop hc))
      (by rw [List.length_drop]; omega)
    rw [payloads, if_neg hne, if_neg hlength, List.map_cons, receive, if_neg (by omega),
      if_neg hplus, String.toList_ofList, hrest]
    show some (response.take payloadLimit ++ response.drop payloadLimit, []) = some (response, [])
    rw [List.take_append_drop]

/-! ### Taking the response apart -/

/-- Account and password of a PLAIN response that names no authorization identity. -/
def readPlain? : List UInt8 → Option (String × String)
  | 0 :: bytes =>
    match bytes.dropWhile (· ≠ 0) with
    | 0 :: password => do
      let account ← ofUtf8? (bytes.takeWhile (· ≠ 0))
      let password ← ofUtf8? password
      some (account, password)
    | _ => none
  | _ => none

/-- An account without NUL is told apart from the password, whatever that holds. -/
theorem readPlain?_plainBytes {account : String} (haccount : '\x00' ∉ account.toList)
    (password : String) : readPlain? (plainBytes account password) = some (account, password) := by
  have hnul : ∀ b ∈ utf8Bytes account, decide (b ≠ 0) = true := by
    intro b hb
    rw [decide_eq_true_iff]
    rintro rfl
    exact haccount (mem_toList_of_mem_utf8Bytes (by decide) hb)
  have htake : (utf8Bytes account ++ 0 :: utf8Bytes password).takeWhile (· ≠ 0) =
      utf8Bytes account := by
    rw [List.takeWhile_append_of_pos hnul, List.takeWhile_cons_of_neg (by simp), List.append_nil]
  have hdrop : (utf8Bytes account ++ 0 :: utf8Bytes password).dropWhile (· ≠ 0) =
      0 :: utf8Bytes password := by
    rw [List.dropWhile_append_of_pos hnul, List.dropWhile_cons_of_neg (by simp)]
  have hread (text : String) : ofUtf8? (utf8Bytes text) = some text :=
    ofUtf8?_eq_some_iff.mpr rfl
  rw [plainBytes, List.cons_append, readPlain?, hdrop, htake]
  simp only [hread, Option.bind_eq_bind, Option.bind_some]

/-! ### A login -/

/-- **A login arrives as it was sent.**  No payload is empty or too long, and all but the last one
are full, so that a server that puts them together to the first one below the limit uses them all
up.  What it has then is base64 for the NUL-separated account and password, and these are the only
ones that it can stand for. -/
theorem credentials_received {account : String} (haccount : '\x00' ∉ account.toList)
    (password : String) :
    (∀ payload ∈ credentials account password,
      payload ≠ "" ∧ payload.utf8ByteSize ≤ payloadLimit) ∧
      (∀ payload ∈ (credentials account password).dropLast,
        payload.utf8ByteSize = payloadLimit) ∧
      ∃ text, receive (credentials account password) = some (text, []) ∧
        Base64.decode text = some (0 :: utf8Bytes account ++ 0 :: utf8Bytes password) ∧
        readPlain? (0 :: utf8Bytes account ++ 0 :: utf8Bytes password) = some (account, password) ∧
        ∀ account' password', '\x00' ∉ account'.toList →
          Base64.decode text = some (0 :: utf8Bytes account' ++ 0 :: utf8Bytes password') →
          account' = account ∧ password' = password := by
  set response := Base64.encode (plainBytes account password) with hresponse
  have hsent : credentials account password = (payloads response).map String.ofList := by
    rw [hresponse, ← String.toList_ofList (l := Base64.encode _)]
    rfl
  have hsymbol : ∀ c ∈ response, Base64.IsSymbol c := fun c hc => Base64.mem_encode hc
  have hdecode := Base64.decode_encode (plainBytes account password)
  refine ⟨fun payload hpayload => ?_, fun payload hpayload => ?_, response, ?_, hdecode,
    readPlain?_plainBytes haccount password, fun account' password' haccount' hdecode' => ?_⟩
  · refine ⟨?_, (of_mem_credentials hpayload).2⟩
    rw [hsent] at hpayload
    obtain ⟨piece, hpiece, rfl⟩ := List.mem_map.mp hpayload
    rw [ne_eq, String.ofList_eq_empty_iff]
    exact (of_mem_payloads hpiece).1
  · rw [hsent, ← List.map_dropLast] at hpayload
    obtain ⟨piece, hpiece, rfl⟩ := List.mem_map.mp hpayload
    have hmem := (of_mem_payloads (List.mem_of_mem_dropLast hpiece)).2.2
    have hpiecesymbol : ∀ c ∈ piece, Base64.IsSymbol c := fun c hc =>
      (hmem c hc).elim (hsymbol c) fun hplus => .inr (.inl hplus)
    rw [utf8ByteSize_ofList, Base64.byteLength_of_isSymbol hpiecesymbol]
    exact length_of_mem_dropLast_payloads hpiece
  · rw [hsent]
    refine receive_payloads hsymbol ?_
    rw [hresponse, Base64.length_encode]
    exact Nat.dvd_mul_left 4 _
  · have hbytes := Option.some.inj (hdecode.symm.trans hdecode')
    have hread := readPlain?_plainBytes haccount password
    rw [hbytes] at hread
    rw [← plainBytes, readPlain?_plainBytes haccount' password'] at hread
    exact Prod.mk.inj (Option.some.inj hread)

/-- A response of one full payload, ended by a `+` that is not part of it. -/
theorem credentials_received_full :
    let password := String.ofList (List.replicate 296 'x')
    '\x00' ∉ "me".toList ∧
      (credentials "me" password).getLast? = some "+" ∧
      ∃ text, receive (credentials "me" password) = some (text, []) ∧
        Base64.decode text = some (0 :: utf8Bytes "me" ++ 0 :: utf8Bytes password) := by
  intro password
  have haccount : '\x00' ∉ "me".toList := by decide
  have hlast : (credentials "me" password).getLast? = some "+" := by
    have hpassword : password.utf8ByteSize = 296 := by
      rw [utf8ByteSize_ofList, byteLength_replicate]
      decide
    have hbytes : (plainBytes "me" password).length = 300 := by
      rw [plainBytes, List.length_append, List.length_cons, List.length_cons, length_utf8Bytes,
        length_utf8Bytes, hpassword]
      decide
    have hlength : (encodePlain "me" password).toList.length = 400 := by
      rw [encodePlain, String.toList_ofList, Base64.length_encode, hbytes]
    have hne : (encodePlain "me" password).toList ≠ [] := List.ne_nil_of_length_pos (by omega)
    have hfull : ¬(encodePlain "me" password).toList.length < payloadLimit := by
      rw [hlength]
      decide
    have hrest : (encodePlain "me" password).toList.drop payloadLimit = [] :=
      List.drop_eq_nil_iff.mpr hlength.le
    rw [credentials, payloads, if_neg hne, if_neg hfull, hrest, payloads, if_pos rfl]
    rfl
  obtain ⟨-, -, text, hreceive, hdecode, -⟩ := credentials_received haccount password
  exact ⟨haccount, hlast, text, hreceive, hdecode⟩

end Irc.Sasl
