import RunAlexDb.Model.Auth
import RunAlexDb.Model.Concrete

/-!
# Passwords — the two checks of one login

A login is checked against the password, for root out of the configuration, or
against the double hash in the user table. With a response the two agree. The
empty response of a client without a password is right for the first when the
password is empty, for the second only when the stored hash is all zeros, which
no hash is.

Main result: `verifiers_agree_iff`.
-/

set_option linter.unusedSectionVars false

namespace RunAlexDb

open Text Platform

section Verifiers

variable [Platform]

/-- What a `mysql_native_password` client answers to the scramble. -/
def clientResponse (password : Str) (scramble : Bytes) : Bytes :=
  if password.isEmpty then []
  else xorBytes (sha1 (bytes password)) (sha1 (scramble ++ sha1 (sha1 (bytes password))))

/-- SHA-1 on the inputs of one login: 20 bytes, no second text for the hash that
is stored, and that hash not all zeros. -/
structure Sha1Fits (password : Str) (scramble response : Bytes) : Prop where
  length : ∀ data, (sha1 data).length = 20
  injective : sha1 (xorBytes response (sha1 (scramble ++ doubleSha1 (bytes password)))) =
      sha1 (sha1 (bytes password)) →
    xorBytes response (sha1 (scramble ++ doubleSha1 (bytes password))) = sha1 (bytes password)
  image : ∃ b ∈ doubleSha1 (bytes password), b ≠ 0

theorem xorBytes_cancel {a b : Bytes} (h : a.length = b.length) : xorBytes (xorBytes a b) b = a := by
  induction a generalizing b with
  | nil => rfl
  | cons x a ih =>
    obtain ⟨y, b, rfl⟩ := List.exists_cons_of_length_eq_add_one h.symm
    have hRest : xorBytes (xorBytes a b) b = a := ih (by simpa using h)
    have hByte : x ^^^ y ^^^ y = x := by rw [UInt8.xor_assoc, UInt8.xor_self, UInt8.xor_zero]
    show (x ^^^ y ^^^ y) :: xorBytes (xorBytes a b) b = x :: a
    rw [hByte, hRest]

theorem length_xorBytes {a b : Bytes} (h : a.length = b.length) : (xorBytes a b).length = a.length := by
  unfold xorBytes
  rw [List.length_zipWith, ← h, Nat.min_self]

/-- A password is accepted from its client. -/
theorem verify_clientResponse {password : Str} {scramble : Bytes}
    (hLen : ∀ data, (sha1 data).length = 20) :
    verifyNativePassword password scramble (clientResponse password scramble) = true := by
  unfold clientResponse verifyNativePassword
  by_cases hEmpty : password.isEmpty = true
  · rw [if_pos hEmpty, if_pos List.isEmpty_nil, hEmpty]
  · have hSize : (xorBytes (sha1 (bytes password))
        (sha1 (scramble ++ sha1 (sha1 (bytes password))))).length = 20 :=
      (length_xorBytes ((hLen _).trans (hLen _).symm)).trans (hLen _)
    have hSome : (xorBytes (sha1 (bytes password))
        (sha1 (scramble ++ sha1 (sha1 (bytes password))))).isEmpty = false := by
      rw [List.isEmpty_eq_false_iff, ← List.length_pos_iff, hSize]
      decide
    simp only
    rw [if_neg hEmpty, hSome, if_neg Bool.false_ne_true, hSize,
      xorBytes_cancel ((hLen _).trans (hLen _).symm), beq_self_eq_true, beq_self_eq_true]
    rfl

/-- With a response the two checks are one. -/
theorem verifiers_agree {password : Str} {scramble response : Bytes}
    (hSha : Sha1Fits password scramble response) (h : response ≠ []) :
    verifyNativePassword password scramble response =
      verifyNativePasswordHash (doubleSha1 (bytes password)) scramble response := by
  have hSome : response.isEmpty = false := List.isEmpty_eq_false_iff.2 h
  have hInj := hSha.injective
  unfold doubleSha1 at hInj
  unfold verifyNativePassword verifyNativePasswordHash doubleSha1
  simp only
  rw [hSome, if_neg Bool.false_ne_true, if_neg Bool.false_ne_true]
  congr 1
  rw [Bool.eq_iff_iff, beq_iff_eq, beq_iff_eq]
  constructor
  · intro hRight
    rw [hRight]
  · exact hInj

/-- The empty response. -/
theorem verify_nil {password : Str} {scramble : Bytes} (hSha : Sha1Fits password scramble []) :
    verifyNativePassword password scramble [] = password.isEmpty ∧
      verifyNativePasswordHash (doubleSha1 (bytes password)) scramble [] = false := by
  obtain ⟨b, hb, hNonZero⟩ := hSha.image
  have hNot : (doubleSha1 (bytes password)).all (· == 0) = false := by
    rw [List.all_eq_false]
    exact ⟨b, hb, by simpa using hNonZero⟩
  unfold verifyNativePassword verifyNativePasswordHash
  exact ⟨rfl, hNot⟩

/-- **The two checks** agree, and both accept the client's own response, just when
the password or the response is not empty. -/
theorem verifiers_agree_iff (password : Str) (scramble response : Bytes)
    (hSha : Sha1Fits password scramble response) :
    (verifyNativePassword password scramble response =
          verifyNativePasswordHash (doubleSha1 (bytes password)) scramble response ∧
        (response = clientResponse password scramble →
          verifyNativePassword password scramble response = true ∧
            verifyNativePasswordHash (doubleSha1 (bytes password)) scramble response = true)) ↔
      password ≠ [] ∨ response ≠ [] := by
  by_cases hResponse : response = []
  · subst hResponse
    obtain ⟨hPassword, hHash⟩ := verify_nil hSha
    rw [hPassword, hHash, List.isEmpty_eq_false_iff]
    constructor
    · rintro ⟨hSome, -⟩
      exact .inl hSome
    · intro hEither
      have hSome : password ≠ [] := hEither.resolve_right fun hNot => hNot rfl
      refine ⟨hSome, fun hClient => ?_⟩
      have hAccepted : verifyNativePassword password scramble (clientResponse password scramble) = true :=
        verify_clientResponse hSha.length
      rw [← hClient, hPassword, List.isEmpty_iff] at hAccepted
      exact absurd hAccepted hSome
  · refine iff_of_true ⟨verifiers_agree hSha hResponse, ?_⟩ (.inr hResponse)
    intro hClient
    rw [← verifiers_agree hSha hResponse, hClient]
    exact ⟨verify_clientResponse hSha.length, verify_clientResponse hSha.length⟩

end Verifiers

-- ---------------------------------------------------------------------------
-- The empty password
-- ---------------------------------------------------------------------------

section EmptyPassword

local instance passwordsPlatform : Platform := tablePlatform []

theorem length_digest (data : Bytes) : (sha1 data).length = 20 := rfl

def ones : Bytes := List.replicate 20 1

theorem sha1Fits_secret : Sha1Fits "secret" ones (clientResponse "secret" ones) where
  length := length_digest
  injective := by decide +kernel
  image := by decide +kernel

theorem verifiers_agree_iff_secret :
    verifyNativePassword "secret" ones (clientResponse "secret" ones) =
      verifyNativePasswordHash (doubleSha1 (bytes "secret")) ones (clientResponse "secret" ones) :=
  ((verifiers_agree_iff "secret" ones _ sha1Fits_secret).2 (.inl (by decide))).1

theorem sha1Fits_empty : Sha1Fits [] ones [] where
  length := length_digest
  injective := by decide +kernel
  image := by decide +kernel

/-- Without a password the first check accepts the empty response and the second
does not. -/
theorem not_verifiers_agree :
    ¬ ∀ (password : Str) (scramble response : Bytes), scramble.length = 20 →
      Sha1Fits password scramble response →
        verifyNativePassword password scramble response =
          verifyNativePasswordHash (doubleSha1 (bytes password)) scramble response := by
  intro hAll
  have hSame := hAll [] ones [] rfl sha1Fits_empty
  obtain ⟨hPassword, hHash⟩ := verify_nil sha1Fits_empty
  rw [hPassword, hHash] at hSame
  cases hSame

end EmptyPassword

end RunAlexDb
