import RunAlexDb.Model.Server

/-!
# FirstPacket — what the first packet of a client is cut at

The first payload is a request for TLS or a handshake response. The response is
read slice by slice: a user name up to its NUL, an answer to the scramble with
a length byte before it, a database name. `readResponse` is that reading with
every index and slice checked; what it reads is what `parseHandshake` reads.

The slice behind the user name starts one byte past the NUL, and without a NUL
one byte past the end.

Main results: `readResponse_eq`, `firstPacket_iff`.
-/

namespace RunAlexDb

open Text Platform

-- ---------------------------------------------------------------------------
-- Slices of bytes
-- ---------------------------------------------------------------------------

/-- `&b[n..]`; `none` where Rust panics. -/
def bytesFrom (b : Bytes) (n : Nat) : Option Bytes := if n ≤ b.length then some (b.drop n) else none

/-- `&b[..n]`; `none` where Rust panics. -/
def bytesTo (b : Bytes) (n : Nat) : Option Bytes := if n ≤ b.length then some (b.take n) else none

/-- `&b[m..n]`; `none` where Rust panics. -/
def bytesBetween (b : Bytes) (m n : Nat) : Option Bytes :=
  if m ≤ n ∧ n ≤ b.length then some ((b.drop m).take (n - m)) else none

theorem bytesFrom_of_le {b : Bytes} {n : Nat} (h : n ≤ b.length) : bytesFrom b n = some (b.drop n) :=
  if_pos h

theorem bytesTo_of_le {b : Bytes} {n : Nat} (h : n ≤ b.length) : bytesTo b n = some (b.take n) :=
  if_pos h

theorem bytesBetween_of_le {b : Bytes} {m n : Nat} (hmn : m ≤ n) (hn : n ≤ b.length) :
    bytesBetween b m n = some ((b.drop m).take (n - m)) :=
  if_pos ⟨hmn, hn⟩

/-- `rest.iter().position(|&b| b == 0)`. -/
def nulAt (b : Bytes) : Option Nat := b.findIdx? (· == 0)

theorem nulAt_eq_none {b : Bytes} : nulAt b = none ↔ (0 : UInt8) ∉ b := by
  rw [nulAt, List.findIdx?_eq_none_iff]
  constructor
  · intro h hMem
    simpa using h 0 hMem
  · intro h x hx
    have hNe : x ≠ 0 := fun hZero => h (hZero ▸ hx)
    simpa using hNe

/-- Around the first NUL. -/
theorem nulAt_eq_some {b : Bytes} {n : Nat} (h : nulAt b = some n) :
    n < b.length ∧ b.take n = b.takeWhile (· != 0) ∧ b.drop (n + 1) = (b.dropWhile (· != 0)).drop 1 := by
  induction b generalizing n with
  | nil => cases h
  | cons x b ih =>
    rw [nulAt, List.findIdx?_cons] at h
    by_cases hx : x = 0
    · subst hx
      obtain rfl : n = 0 := by simpa using h.symm
      exact ⟨Nat.zero_lt_succ _, by simp, by simp⟩
    · have hBeq : (x == 0) = false := by simpa using hx
      have hBne : (x != 0) = true := by simpa using hx
      rw [hBeq] at h
      obtain ⟨k, hk, rfl⟩ := Option.map_eq_some_iff.1 h
      obtain ⟨hLt, hTake, hDrop⟩ := ih hk
      refine ⟨Nat.succ_lt_succ hLt, ?_, ?_⟩
      · rw [List.take_succ_cons, List.takeWhile_cons, hBne, if_pos rfl, hTake]
      · rw [List.drop_succ_cons, List.dropWhile_cons, hBne, if_pos rfl, hDrop]

-- ---------------------------------------------------------------------------
-- The two readings of the payload
-- ---------------------------------------------------------------------------

/-- `u32::from_le_bytes([p[0], p[1], p[2], p[3]])`. -/
def capabilities (p : Bytes) : Rust Nat := do
  let b0 ← orPanic p[0]?
  let b1 ← orPanic p[1]?
  let b2 ← orPanic p[2]?
  let b3 ← orPanic p[3]?
  return leNat [b0, b1, b2, b3]

/-- The test of `handle_connection` on the payload: 32 bytes with the CLIENT_SSL
bit. -/
def readSslRequest (p : Bytes) : Rust Bool :=
  if p.length = 32 then do return (← capabilities p) / 2 ^ 11 % 2 == 1
  else pure false

/-- The answer to the scramble: as many bytes as the length byte says, or as
there are. -/
def readAuthResponse (rest : Bytes) : Rust Bytes :=
  if rest.isEmpty then pure []
  else do
    let len := (← orPanic rest[0]?).toNat
    let response ← orPanic (bytesBetween rest 1 (1 + min len (rest.length - 1)))
    let _ ← orPanic (bytesFrom rest (1 + min len (rest.length - 1)))
    return response

/-- `auth_len`, the length byte as it is. -/
def authLen (rest : Bytes) : Rust Nat :=
  if rest.isEmpty then .ok 0 else (orPanic rest[0]?).map UInt8.toNat

/-- `rest2`: what is left of `rest` behind the answer. -/
def behindAuth (rest : Bytes) (dbOffset : Nat) : Rust Bytes :=
  if dbOffset ≤ rest.length then orPanic (bytesFrom rest dbOffset) else .ok []

def knownDatabase (name : Str) : Option Str := if isDatabaseName name then some name else none

def databaseIn (rest2 : Bytes) : Rust (Option Str) :=
  match nulAt rest2 with
  | some stop => (orPanic (bytesTo rest2 stop)).map fun name => knownDatabase (trim (fromUtf8Lossy name))
  | none =>
    if rest2.isEmpty then .ok none
    else .ok (knownDatabase (trimMatches '\x00' (trim (fromUtf8Lossy rest2))))

/-- `db_from_handshake`. -/
def readDatabase (rest : Bytes) : Rust (Option Str) := do
  let len ← authLen rest
  let rest2 ← behindAuth rest (1 + len)
  databaseIn rest2

/-- The handshake loop on a payload up to the login, `none` when it is left
before. The password check in between slices nothing. -/
def readResponse (payload : Bytes) : Rust (Option Handshake) :=
  if payload.length < 32 then pure none
  else do
    let caps ← capabilities payload
    if payload.length < 33 then return none
    else
      let rest ← orPanic (bytesFrom payload 32)
      let userEnd := (nulAt rest).getD rest.length
      let username := fromUtf8Lossy (← orPanic (bytesTo rest userEnd))
      let rest ← orPanic (bytesFrom rest (userEnd + 1))
      let authResponse ← readAuthResponse rest
      let user := trimMatches '`' username
      let database ← if caps / 8 % 2 = 1 then readDatabase rest else pure none
      return some { user := if user.isEmpty then "root" else user, authResponse, database }

-- ---------------------------------------------------------------------------
-- What they read
-- ---------------------------------------------------------------------------

theorem capabilities_eq {p : Bytes} (h : 4 ≤ p.length) : capabilities p = .ok (leNat (p.take 4)) := by
  match p, h with
  | b0 :: b1 :: b2 :: b3 :: rest, _ => rfl

theorem readSslRequest_ok (p : Bytes) :
    readSslRequest p = .ok (p.length == 32 && leNat (p.take 4) / 2 ^ 11 % 2 == 1) := by
  by_cases hLen : p.length = 32
  · rw [readSslRequest, if_pos hLen, capabilities_eq (by omega), hLen]
    rfl
  · have hBeq : (p.length == 32) = false := by simpa using hLen
    rw [readSslRequest, if_neg hLen, hBeq]
    rfl

theorem readAuthResponse_ok (rest : Bytes) :
    readAuthResponse rest = .ok ((rest.drop 1).take (byteAt rest 0)) := by
  cases rest with
  | nil => rfl
  | cons len rest =>
    have hLe : 1 + min len.toNat rest.length ≤ (len :: rest).length := by
      rw [List.length_cons]
      omega
    have hLen : (len :: rest).length - 1 = rest.length := rfl
    have hSame : rest.take (1 + min len.toNat rest.length - 1) = rest.take len.toNat := by
      rw [Nat.add_sub_cancel_left, List.take_eq_take_iff]
      omega
    unfold readAuthResponse
    simp only [List.isEmpty_cons, Bool.false_eq_true, if_false, List.getElem?_cons_zero, orPanic]
    show (do
      let response ← orPanic (bytesBetween (len :: rest) 1 (1 + min len.toNat rest.length))
      let _ ← orPanic (bytesFrom (len :: rest) (1 + min len.toNat rest.length))
      return response) = _
    rw [bytesBetween_of_le (by omega) hLe, bytesFrom_of_le hLe]
    exact congrArg Except.ok hSame

theorem authLen_ok (rest : Bytes) : authLen rest = .ok (byteAt rest 0) := by
  cases rest <;> rfl

theorem behindAuth_ok (rest : Bytes) (n : Nat) : behindAuth rest n = .ok (rest.drop n) := by
  by_cases hLe : n ≤ rest.length
  · rw [behindAuth, if_pos hLe, bytesFrom_of_le hLe]
    rfl
  · rw [behindAuth, if_neg hLe, List.drop_eq_nil_of_le (by omega)]

theorem contains_of_nulAt {b : Bytes} {n : Nat} (h : nulAt b = some n) : b.contains 0 = true := by
  by_contra hNot
  rw [nulAt_eq_none.2 (by simpa using hNot)] at h
  cases h

theorem contains_of_nulAt_none {b : Bytes} (h : nulAt b = none) : b.contains 0 = false := by
  simpa using nulAt_eq_none.1 h

theorem databaseIn_ok (rest2 : Bytes) : databaseIn rest2 = .ok (databaseField rest2) := by
  unfold databaseIn databaseField
  cases hNul : nulAt rest2 with
  | none =>
    rw [contains_of_nulAt_none hNul]
    cases rest2 <;> rfl
  | some stop =>
    obtain ⟨hLt, hTake, -⟩ := nulAt_eq_some hNul
    rw [contains_of_nulAt hNul, if_pos rfl, ← hTake]
    show (orPanic (bytesTo rest2 stop)).map _ = _
    rw [bytesTo_of_le (Nat.le_of_lt hLt)]
    rfl

theorem readDatabase_ok (rest : Bytes) :
    readDatabase rest = .ok (databaseField (rest.drop (1 + byteAt rest 0))) := by
  rw [readDatabase, authLen_ok]
  show (behindAuth rest (1 + byteAt rest 0) >>= databaseIn) = _
  rw [behindAuth_ok]
  exact databaseIn_ok _

/-- The checked reading is the reading of the model of the session. -/
theorem readResponse_eq (payload : Bytes) :
    readResponse payload =
      if payload.length < 33 then .ok none else (parseHandshake payload).map some := by
  by_cases hShort : payload.length < 32
  · rw [readResponse, if_pos hShort, if_pos (by omega)]
    rfl
  · rw [readResponse, if_neg hShort, capabilities_eq (by omega)]
    by_cases hLen : payload.length < 33
    · rw [if_pos hLen]
      exact if_pos hLen
    · rw [if_neg hLen]
      refine (if_neg hLen).trans ?_
      rw [bytesFrom_of_le (by omega)]
      unfold parseHandshake
      dsimp only [orPanic, bind, Except.bind]
      generalize payload.drop 32 = rest
      cases hNul : nulAt rest with
      | none =>
        have hPast : bytesFrom rest (rest.length + 1) = none := if_neg (by omega)
        rw [contains_of_nulAt_none hNul, Option.getD_none, bytesTo_of_le (Nat.le_refl _), hPast]
        rfl
      | some n =>
        obtain ⟨hLt, hTake, hDrop⟩ := nulAt_eq_some hNul
        rw [contains_of_nulAt hNul, Option.getD_some, bytesTo_of_le (Nat.le_of_lt hLt),
          bytesFrom_of_le hLt, hTake, hDrop]
        dsimp only
        rw [readAuthResponse_ok, readDatabase_ok]
        by_cases hCaps : leNat (payload.take 4) / 8 % 2 = 1
        · rw [if_pos hCaps]
          simp [hCaps]
          rfl
        · rw [if_neg hCaps]
          simp [hCaps]
          rfl

-- ---------------------------------------------------------------------------
-- When no slice is out of range
-- ---------------------------------------------------------------------------

theorem readResponse_ok_iff (payload : Bytes) :
    (∃ h, readResponse payload = .ok h) ↔ payload.length ≤ 32 ∨ (0 : UInt8) ∈ payload.drop 32 := by
  rw [readResponse_eq]
  by_cases hLen : payload.length < 33
  · rw [if_pos hLen]
    exact iff_of_true ⟨none, rfl⟩ (.inl (by omega))
  · rw [if_neg hLen]
    unfold parseHandshake
    by_cases hNul : (0 : UInt8) ∈ payload.drop 32
    · have hContains : (payload.drop 32).contains 0 = true := by simpa using hNul
      simp only [hContains]
      exact iff_of_true ⟨_, rfl⟩ (.inr hNul)
    · have hContains : (payload.drop 32).contains 0 = false := by simpa using hNul
      simp only [hContains]
      have hRight : ¬(payload.length ≤ 32 ∨ (0 : UInt8) ∈ payload.drop 32) := fun h =>
        h.elim (fun hLe => hLen (by omega)) hNul
      refine iff_of_false ?_ hRight
      rintro ⟨h, hOk⟩
      cases hOk

/-- The TLS test and the reading of the handshake response stay inside the first
payload exactly when it ends with its fixed part or has a NUL behind it. -/
theorem firstPacket_iff (payload : Bytes) :
    ((∃ tls, readSslRequest payload = .ok tls) ∧ ∃ h, readResponse payload = .ok h) ↔
      payload.length ≤ 32 ∨ (0 : UInt8) ∈ payload.drop 32 := by
  rw [← readResponse_ok_iff]
  exact and_iff_right ⟨_, readSslRequest_ok payload⟩

/-- A user name of one byte and nothing behind it. -/
theorem not_firstPacket :
    ¬∀ payload : Bytes, (∃ tls, readSslRequest payload = .ok tls) ∧
      ∃ h, readResponse payload = .ok h := by
  intro h
  obtain ⟨-, r, hRead⟩ := h (List.replicate 32 0 ++ [65])
  have hPanic : readResponse (List.replicate 32 0 ++ [65]) = .error .panic := by decide +kernel
  rw [hPanic] at hRead
  cases hRead

end RunAlexDb
