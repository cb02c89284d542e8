import GuestAgent.Credentials.Pam
import GuestAgent.Windows.Gina
import GuestAgent.Windows.Pipe

/-!
# Two consumers of one block

The agent packs a user name and a password into a block, and on Windows either the credential
provider or the GINA takes it apart.  Each does its own arithmetic: the
provider takes the password to be what follows the user name, with the pad byte, and the GINA takes
it to be three bytes more than that.  In both, the pad byte ends the string.

`Agreement` is that both find what was packed and stay within their objects, whatever is in memory
after the block: the provider with the user name split at its first `@`, the GINA with the user name
as it is.  `agreement_iff` says for which blocks that is so.  For those of the last three lengths
that the pipe carries, the three bytes more are past the end of the array the block was read into.
-/

set_option autoImplicit false

namespace GuestAgent

open CredentialsChannel (ProviderEnv delivery delivery_at outcome_eq received_start)
open Gina (GinaEnv)

/-- The UTF-16 of a text. -/
def utf16 (t : Text) : Wide := (joinSurrogates t).flatMap utf16Char

/-- Every surrogate of a text is half of a pair. -/
def Paired (t : Text) : Prop := ∀ c ∈ joinSurrogates t, isSurrogate c = false

namespace Credentials

variable (c : Credentials)

/-- The user name up to its first `@`. -/
def user : Text := c.username.takeWhile (· ≠ 0x40)

/-- What comes after the first `@` of the user name, if there is one. -/
def domain : Option Text :=
  if 0x40 ∈ c.username then some (c.username.dropWhile (· ≠ 0x40)).tail else none

theorem username_eq (h : 0x40 ∈ c.username) :
    c.username = c.user ++ 0x40 :: (c.username.dropWhile (· ≠ 0x40)).tail := by
  have hne : c.username.dropWhile (· ≠ 0x40) ≠ [] := by
    intro hnil
    have := List.dropWhile_eq_nil_iff.mp hnil _ h
    simp at this
  obtain ⟨x, xs, hcons⟩ := List.exists_cons_of_ne_nil hne
  have hx : x = 0x40 := by
    have := List.head?_dropWhile_not (fun y ↦ decide (y ≠ 0x40)) c.username
    rw [hcons] at this
    simpa using this
  conv_lhs => rw [← List.takeWhile_append_dropWhile (p := (· ≠ 0x40)) (l := c.username)]
  rw [hcons, hx]
  rfl

theorem isChar_user : ∀ x ∈ c.user, IsChar x :=
  fun x hx ↦ c.isChar_username x (List.takeWhile_subset _ hx)

theorem isChar_domain : ∀ x ∈ (c.username.dropWhile (· ≠ 0x40)).tail, IsChar x :=
  fun x hx ↦ c.isChar_username x (List.dropWhile_subset _ (List.mem_of_mem_tail hx))

end Credentials

section Agreement

variable (dec : Utf8Decoder) {c : Credentials}

theorem decode_pad {t : Text} (ht : ∀ c ∈ t, IsChar c) :
    dec.decode (encodeUtf8 t ++ [0]) = dec.wide t ++ [0] := by
  rw [dec.decode_encodeUtf8_append ht]
  exact congrArg (dec.wide t ++ ·) (dec.decode_utf8Char 0 (by decide) (by decide))

/-- What the provider's listener is told of a user name and a password with its pad byte. -/
theorem delivery_wide (hu : c.username ≠ []) (hp : c.password ≠ []) :
    delivery (dec.wide c.username) (dec.wide c.password ++ [0]) =
      some ⟨dec.wide c.user, dec.wide c.password, c.domain.map dec.wide⟩ := by
  have hpass : (dec.wide c.password ++ [0]).takeWhile (· ≠ 0) = dec.wide c.password :=
    Gina.takeWhile_wide (dec.wide_ne_zero c.isChar_password)
  have hpne := dec.wide_ne_nil c.isChar_password hp
  by_cases hat : 0x40 ∈ c.username
  · have hdomain : (dec.wide (c.username.dropWhile (· ≠ 0x40)).tail).takeWhile (· ≠ 0) =
        dec.wide (c.username.dropWhile (· ≠ 0x40)).tail :=
      List.takeWhile_eq_self_iff.mpr fun x hx ↦ by
        simpa using dec.wide_ne_zero c.isChar_domain x hx
    have huser : 0x40 ∉ c.user := by
      intro h
      have := List.mem_takeWhile_imp h
      simp at this
    rw [Credentials.domain, if_pos hat, Option.map_some]
    conv_lhs => rw [c.username_eq hat]
    rw [dec.wide_split c.isChar_user c.isChar_domain, delivery_at _ (by rwa [hpass]), hpass,
      hdomain]
    exact fun x hx ↦ ⟨dec.wide_ne_zero c.isChar_user x hx, dec.wide_ne_at c.isChar_user huser x hx⟩
  · have hname : (dec.wide c.username).takeWhile (· ≠ 0) = dec.wide c.username :=
      List.takeWhile_eq_self_iff.mpr fun x hx ↦ by
        simpa using dec.wide_ne_zero c.isChar_username x hx
    have hwide : 0x40 ∉ dec.wide c.username :=
      fun h ↦ dec.wide_ne_at c.isChar_username hat _ h rfl
    have huser : c.user = c.username := takeWhile_ne_of_notMem hat
    rw [delivery, hname, hpass, Credentials.domain, if_neg hat, huser]
    simp only [dec.wide_ne_nil c.isChar_username hu, hpne, or_self, if_false, hwide]
    rfl

/-- **Both consumers find what was packed**, within their objects.  The text they find is its
UTF-16, if its surrogates come in pairs. -/
structure Agreement (c : Credentials) (block : Bytes) (provider : ProviderEnv) (gina : GinaEnv) :
    Prop where
  provider_safe : provider.Safe dec block
  provider_rest : (provider.outcome dec block).rest =
    [⟨dec.wide c.user, dec.wide c.password, c.domain.map dec.wide⟩]
  gina_inBounds : gina.InBounds dec block
  gina_rest : (gina.outcome dec block).rest = [⟨dec.wide c.username, dec.wide c.password⟩]
  split : dec.wide c.username =
    dec.wide c.user ++ (c.domain.elim [] fun domain ↦ 0x40 :: dec.wide domain)
  utf16 : ∀ t, (∀ x ∈ t, IsChar x) → Paired t → dec.wide t = utf16 t

theorem wide_username (c : Credentials) : dec.wide c.username =
    dec.wide c.user ++ (c.domain.elim [] fun domain ↦ 0x40 :: dec.wide domain) := by
  rw [Credentials.domain]
  by_cases hat : 0x40 ∈ c.username
  · rw [if_pos hat]
    conv_lhs => rw [c.username_eq hat]
    exact dec.wide_split c.isChar_user c.isChar_domain
  · have huser : c.user = c.username := takeWhile_ne_of_notMem hat
    rw [if_neg hat, huser]
    exact (List.append_nil _).symm

theorem block_of_args {block : Bytes} (h : loginCredentials c.args = .ok block) :
    (encodeUtf8 c.username).length < 2 ^ 32 ∧
      block = packBe32 (encodeUtf8 c.username).length ++
        (encodeUtf8 c.username ++ (encodeUtf8 c.password ++ [0])) := by
  rw [loginCredentials_args, packCredentials] at h
  split at h
  · rename_i hlt
    rw [← List.append_assoc]
    exact ⟨hlt, (Except.ok.inj h).symm⟩
  · cases h

/-- The GINA posts what was packed, and stays within its array where it has three bytes left. -/
theorem gina_outcome {block : Bytes} (hblock : loginCredentials c.args = .ok block)
    (hlen : block.length ≤ 1024) (gina : GinaEnv) (hgina : ∀ k size, gina.allocates k size = true) :
    (gina.outcome dec block).rest = [⟨dec.wide c.username, dec.wide c.password⟩] ∧
      (gina.InBounds dec block ↔ block.length ≤ 1021) := by
  obtain ⟨hlt, rfl⟩ := block_of_args hblock
  have hhd := length_packBe32 (encodeUtf8 c.username).length
  have hdecl := unpackBe32_packBe32 hlt
  exact ⟨(Gina.outcome_block gina hhd hdecl hlen hgina (encode_username_ne c)
      (encode_password_ne c) (decode_pad dec c.isChar_username)
      (dec.wide_ne_zero c.isChar_username) (decode_pad dec c.isChar_password)
      (dec.wide_ne_zero c.isChar_password)).1,
    Gina.inBounds_iff gina hhd hdecl hlen hgina (encode_username_ne c)
      (encode_password_ne c) (decode_pad dec c.isChar_username)
      (dec.wide_ne_zero c.isChar_username) (decode_pad dec c.isChar_password)
      (dec.wide_ne_zero c.isChar_password)⟩

/-- The provider's listener is told what was packed. -/
theorem provider_outcome (hu : c.username ≠ []) (hp : c.password ≠ []) {block : Bytes}
    (hblock : loginCredentials c.args = .ok block) (hlen : block.length ≤ 1024)
    (provider : ProviderEnv) (hprovider : ∀ k size, provider.allocates k size = true)
    (hlistening : provider.listening = true) :
    provider.Safe dec block ∧ (provider.outcome dec block).rest =
      [⟨dec.wide c.user, dec.wide c.password, c.domain.map dec.wide⟩] := by
  obtain ⟨hlt, rfl⟩ := block_of_args hblock
  have hhd := length_packBe32 (encodeUtf8 c.username).length
  have hn : (packBe32 (encodeUtf8 c.username).length ++
      (encodeUtf8 c.username ++ (encodeUtf8 c.password ++ [0]))).length =
      4 + (encodeUtf8 c.username).length + (encodeUtf8 c.password ++ [0]).length := by
    simp only [List.length_append, hhd]
    omega
  have hreceived := received_start provider (u := encodeUtf8 c.username)
    (p := encodeUtf8 c.password ++ [0]) hhd (unpackBe32_packBe32 hlt) hlen
  obtain ⟨hsafe, hrest⟩ := outcome_eq provider dec hreceived hn (hprovider _ _) (hprovider _ _)
  refine ⟨hsafe, ?_⟩
  rw [hrest, if_pos hlistening, decode_pad dec c.isChar_password, ← Utf8Decoder.wide,
    delivery_wide dec hu hp]
  rfl

/-- **They do so exactly for the blocks of at most 1021 bytes.** -/
theorem agreement_iff (hu : c.username ≠ []) (hp : c.password ≠ []) {block : Bytes}
    (hblock : loginCredentials c.args = .ok block) (hlen : block.length ≤ 1024)
    (provider : ProviderEnv) (hprovider : ∀ k size, provider.allocates k size = true)
    (hlistening : provider.listening = true) (gina : GinaEnv)
    (hgina : ∀ k size, gina.allocates k size = true) :
    Agreement dec c block provider gina ↔ block.length ≤ 1021 := by
  obtain ⟨hsafe, hdelivered⟩ :=
    provider_outcome dec hu hp hblock hlen provider hprovider hlistening
  obtain ⟨hposted, hbounds⟩ := gina_outcome dec hblock hlen gina hgina
  exact ⟨fun h ↦ hbounds.mp h.gina_inBounds, fun h ↦ ⟨hsafe, hdelivered, hbounds.mpr h, hposted,
    wide_username dec c, fun t ht hpaired ↦ dec.wide_eq_utf16 ht hpaired⟩⟩

end Agreement

/-- The login of `ann@lab`, whose password is `pw`. -/
def annAtLab : Credentials where
  username := [0x61, 0x6E, 0x6E, 0x40, 0x6C, 0x61, 0x62]
  password := [0x70, 0x77]
  isChar_username := by decide
  isChar_password := by decide

theorem agreement_iff_annAtLab :
    Agreement replacing annAtLab
        [0, 0, 0, 7, 0x61, 0x6E, 0x6E, 0x40, 0x6C, 0x61, 0x62, 0x70, 0x77, 0] .calm .calm ∧
      (ProviderEnv.calm.outcome replacing
        [0, 0, 0, 7, 0x61, 0x6E, 0x6E, 0x40, 0x6C, 0x61, 0x62, 0x70, 0x77, 0]).rest =
        [⟨[0x61, 0x6E, 0x6E], [0x70, 0x77], some [0x6C, 0x61, 0x62]⟩] ∧
      (GinaEnv.calm.outcome replacing
        [0, 0, 0, 7, 0x61, 0x6E, 0x6E, 0x40, 0x6C, 0x61, 0x62, 0x70, 0x77, 0]).rest =
        [⟨[0x61, 0x6E, 0x6E, 0x40, 0x6C, 0x61, 0x62], [0x70, 0x77]⟩] := by
  have h := (agreement_iff replacing (c := annAtLab) (by decide) (by decide)
    (show loginCredentials annAtLab.args = .ok
      [0, 0, 0, 7, 0x61, 0x6E, 0x6E, 0x40, 0x6C, 0x61, 0x62, 0x70, 0x77, 0] from rfl) (by decide)
    ProviderEnv.calm (fun _ _ ↦ rfl) rfl GinaEnv.calm fun _ _ ↦ rfl).mpr (by decide)
  exact ⟨h, h.provider_rest.trans (by decide), h.gina_rest.trans (by decide)⟩

/-- A login with a password of 1018 characters. -/
def longestLogin : Credentials where
  username := [0x61]
  password := List.replicate 1018 0x62
  isChar_username := by decide
  isChar_password c hc := by
    rw [List.eq_of_mem_replicate hc]
    decide

/-- Its block fills the pipe's buffer, and the GINA goes past the end of its own. -/
theorem not_agreement_longestLogin : ∃ block,
    loginCredentials longestLogin.args = .ok block ∧ block.length = 1024 ∧
      ¬ Agreement replacing longestLogin block .calm .calm := by
  have hlen :
      (packBe32 1 ++ [0x61] ++ (encodeUtf8 longestLogin.password ++ [0])).length = 1024 := by
    decide +kernel
  have hblock : loginCredentials longestLogin.args =
      .ok (packBe32 1 ++ [0x61] ++ (encodeUtf8 longestLogin.password ++ [0])) := rfl
  have hbounds := (gina_outcome replacing hblock hlen.le .calm fun _ _ ↦ rfl).2
  refine ⟨_, hblock, hlen, fun h ↦ ?_⟩
  exact absurd (hbounds.mp h.gina_inBounds) (by rw [hlen]; decide)

end GuestAgent
