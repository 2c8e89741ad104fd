import MiniOj.Http.RateLimit
import MiniOj.Infra.Separator

/-!
# Whose bucket a request behind nginx is charged to

nginx appends the address of the client to the header the client sends, and `clientKey` takes
the first element of the result, which is the client's own when it sends one.

* `clientKey_behindNginx` — the key in terms of what the client claims
* `clientKey_eq_iff` — when two requests of one address are charged to the same bucket
-/

namespace MiniOj.Http

open Infra

/-! ## Decoding and the comma -/

/-- A comma is no digit. -/
theorem fromHex_append_comma (rest : Bytes) : ∀ (count value : Nat) (s : Bytes),
    fromHex count value (s ++ 44 :: rest) = fromHex count value s
  | 0, _, _ => by simp only [fromHex]
  | _ + 1, _, [] => rfl
  | count + 1, value, b :: s => by
    simp only [List.cons_append, fromHex]
    congr 1
    funext v
    exact fromHex_append_comma rest count (value * 16 + v) s

/-- An escape of two digits. -/
theorem escape_of_ne {b : UInt8} (h : b ≠ 117) (s : Bytes) :
    escape (b :: s) = (fromHex 2 0 (b :: s)).map fun code => ([.ofNat code], 2) := by
  unfold escape
  split
  · next heq => exact absurd (List.cons.inj heq).1 h
  · rfl

/-- No escape reaches over a comma. -/
theorem escape_append_comma (s rest : Bytes) : escape (s ++ 44 :: rest) = escape s := by
  cases s with
  | nil => rfl
  | cons b s =>
    by_cases hb : b = 117
    · subst hb
      show Option.map _ (fromHex 4 0 (s ++ 44 :: rest)) = Option.map _ (fromHex 4 0 s)
      rw [fromHex_append_comma]
    · rw [List.cons_append, escape_of_ne hb, escape_of_ne hb, ← List.cons_append,
        fromHex_append_comma]

/-- As many digits are read as are asked for. -/
theorem fromHex_length : ∀ {count value code : Nat} {s : Bytes},
    fromHex count value s = some code → count ≤ s.length
  | 0, _, _, _, _ => Nat.zero_le _
  | _ + 1, _, _, [], h => by cases h
  | count + 1, value, code, b :: s, h => by
    obtain ⟨v, -, hrest⟩ := Option.bind_eq_some_iff.mp h
    exact Nat.succ_le_succ (fromHex_length hrest)

/-- An escape is within the text. -/
theorem escape_length {s bytes : Bytes} {length : Nat} (h : escape s = some (bytes, length)) :
    length ≤ s.length := by
  unfold escape at h
  split at h <;> obtain ⟨code, hcode, heq⟩ := Option.map_eq_some_iff.mp h <;> cases heq
  · exact Nat.succ_le_succ (fromHex_length hcode)
  · exact fromHex_length hcode

theorem decodeUrlFrom_cons (b : UInt8) (s : Bytes) :
    decodeUrlFrom 0 (b :: s) =
      if b = 37 then
        match escape s with
        | some (bytes, length) => bytes ++ decodeUrlFrom length s
        | none => b :: decodeUrlFrom 0 s
      else b :: decodeUrlFrom 0 s := rfl

/-- **Decoding does not reach across a comma.** -/
theorem decodeUrlFrom_append_comma (rest : Bytes) : ∀ (s : Bytes) (skip : Nat), skip ≤ s.length →
    decodeUrlFrom skip (s ++ 44 :: rest) = decodeUrlFrom skip s ++ 44 :: decodeUrlFrom 0 rest
  | [], 0, _ => rfl
  | b :: s, skip + 1, h => decodeUrlFrom_append_comma rest s skip (Nat.le_of_succ_le_succ h)
  | b :: s, 0, _ => by
    rw [List.cons_append, decodeUrlFrom_cons, decodeUrlFrom_cons, escape_append_comma]
    by_cases hb : b = 37
    · rw [if_pos hb, if_pos hb]
      cases h : escape s with
      | none =>
        dsimp only
        rw [decodeUrlFrom_append_comma rest s 0 (Nat.zero_le _), List.cons_append]
      | some e =>
        obtain ⟨bytes, length⟩ := e
        dsimp only
        rw [decodeUrlFrom_append_comma rest s length (escape_length h), List.append_assoc]
    · rw [if_neg hb, if_neg hb, decodeUrlFrom_append_comma rest s 0 (Nat.zero_le _),
        List.cons_append]

/-- Text without percent signs is left as it is. -/
theorem decodeUrlFrom_plain : ∀ {s : Bytes}, (∀ b ∈ s, b ≠ 37) → decodeUrlFrom 0 s = s
  | [], _ => rfl
  | b :: s, h => by
    obtain ⟨hb, hs⟩ := List.forall_mem_cons.mp h
    rw [decodeUrlFrom, if_neg hb, decodeUrlFrom_plain hs]

/-! ## Blanks -/

/-- There is no blank in front. -/
theorem dropBlanks_of_head {b : UInt8} (h : isBlank b = false) (s : Bytes) :
    dropBlanks (b :: s) = b :: s := by
  unfold dropBlanks
  rw [List.dropWhile_cons_of_neg (by simp [h])]

/-- Cutting blanks does not reach across a comma. -/
theorem dropBlanks_append_comma (rest : Bytes) : ∀ s : Bytes,
    dropBlanks (s ++ 44 :: rest) = dropBlanks s ++ 44 :: rest
  | [] => rfl
  | b :: s => by
    unfold dropBlanks
    rw [List.cons_append, List.dropWhile_cons, List.dropWhile_cons]
    split
    · exact dropBlanks_append_comma rest s
    · rfl

/-! ## Addresses -/

namespace Address

variable (a : Address)

/-- An address has no blanks. -/
theorem isBlank_false {b : UInt8} (h : b ∈ a.text) : isBlank b = false := by
  obtain ⟨hlow, -⟩ := a.plain b h
  unfold isBlank
  rw [Bool.or_eq_false_iff, beq_eq_false_iff_ne, beq_eq_false_iff_ne]
  constructor <;> rintro rfl <;> exact absurd hlow (by decide)

/-- Nor anything below a dot. -/
theorem ne_of_lt {b c : UInt8} (h : b ∈ a.text) (hc : c < 46) : b ≠ c := by
  rintro rfl
  exact absurd (a.plain b h).1 (UInt8.not_le.mpr hc)

theorem dropBlanks_append (s : Bytes) : dropBlanks (a.text ++ s) = a.text ++ s := by
  cases h : a.text with
  | nil => exact absurd h a.nonempty
  | cons b t =>
    exact dropBlanks_of_head (a.isBlank_false (h ▸ List.mem_cons_self)) _

/-- Nothing is trimmed off the end of a text that ends in an address. -/
theorem trimBlanks_append (s : Bytes) : trimBlanks (s ++ a.text) = dropBlanks (s ++ a.text) := by
  unfold trimBlanks
  have hlast : ∃ t, dropBlanks (s ++ a.text) = t ++ a.text := by
    induction s with
    | nil => exact ⟨[], by simpa using a.dropBlanks_append []⟩
    | cons b s ih =>
      unfold dropBlanks at *
      rw [List.cons_append, List.dropWhile_cons]
      split
      · exact ih
      · exact ⟨b :: s, rfl⟩
  obtain ⟨t, ht⟩ := hlast
  rw [ht, List.reverse_append]
  cases h : a.text.reverse with
  | nil => exact absurd (List.reverse_eq_nil_iff.mp h) a.nonempty
  | cons b r =>
    have hb : b ∈ a.text := List.mem_reverse.mp (h ▸ List.mem_cons_self)
    rw [List.cons_append, dropBlanks_of_head (a.isBlank_false hb), ← List.cons_append, ← h,
      List.reverse_append, List.reverse_reverse, List.reverse_reverse]

/-- It is decoded to itself. -/
theorem decodeUrlFrom_eq : decodeUrlFrom 0 a.text = a.text :=
  decodeUrlFrom_plain fun _ h => a.ne_of_lt h (by decide)

/-- And trimmed to itself. -/
theorem trimBlanks_eq : trimBlanks a.text = a.text := by
  have h := a.trimBlanks_append []
  have h' := a.dropBlanks_append []
  rw [List.nil_append] at h
  rw [List.append_nil] at h'
  rw [h, h']

/-- It has no comma. -/
theorem takeWhile_eq : a.text.takeWhile (· != 44) = a.text :=
  takeWhile_ne_eq_self fun h => a.ne_of_lt h (by decide) rfl

end Address

/-! ## The key -/

/-- The first element of the header that a client sends. -/
def claimed (value : Bytes) : Bytes :=
  trimBlanks ((decodeUrl (dropBlanks value)).takeWhile (· != 44))

/-- The header that the backend reads. -/
theorem decode_forwarded (remoteAddr : Address) (value : Bytes) :
    decodeUrl (trimBlanks (proxyAddXForwardedFor remoteAddr (some value))) =
      decodeUrl (dropBlanks value) ++ utf8 ", " ++ remoteAddr.text := by
  unfold proxyAddXForwardedFor
  dsimp only
  rw [remoteAddr.trimBlanks_append, List.append_assoc, List.append_assoc]
  show decodeUrlFrom 0 (dropBlanks (value ++ 44 :: 32 :: remoteAddr.text)) =
    decodeUrlFrom 0 (dropBlanks value) ++ 44 :: 32 :: remoteAddr.text
  rw [dropBlanks_append_comma, decodeUrlFrom_append_comma _ _ 0 (Nat.zero_le _)]
  congr 2
  rw [decodeUrlFrom, if_neg (by decide), remoteAddr.decodeUrlFrom_eq]

/-- The key when the first element of `X-Forwarded-For` is `first` after trimming. -/
theorem clientKey_of_header {r : Request} {forwarded first : Bytes}
    (hr : r.getHeaderValue "X-Forwarded-For" = forwarded) (hne : forwarded ≠ [])
    (hfirst : trimBlanks (forwarded.takeWhile (· != 44)) = first) :
    clientKey r = if first = [] then r.remoteAddr else first := by
  unfold clientKey
  dsimp only
  rw [hr, hfirst]
  cases forwarded with
  | nil => exact absurd rfl hne
  | cons b f => cases first <;> rfl

/-- **What the server is told behind nginx.** -/
theorem behindNginx_spec {proxy remoteAddr : Address} {req r : Request} {value : Option Bytes}
    (h : behindNginx proxy remoteAddr req value = some r) :
    r.getHeaderValue "X-Forwarded-For" =
        decodeUrl (trimBlanks (proxyAddXForwardedFor remoteAddr value)) ∧
      r.remoteAddr = proxy.text := by
  obtain ⟨forwarded, hparse, rfl⟩ := Option.map_eq_some_iff.mp h
  refine ⟨?_, rfl⟩
  have hvalue : decodeUrl (trimBlanks (proxyAddXForwardedFor remoteAddr value)) = forwarded := by
    unfold parseHeaderValue at hparse
    dsimp only at hparse
    split at hparse
    · cases hparse
    · exact Option.some.inj hparse
  rw [hvalue]
  exact Request.getHeaderValue_of_head rfl (by decide)

/-- **The key is what the client claims**, and only for lack of a claim an address. -/
theorem clientKey_behindNginx {proxy remoteAddr : Address} {req r : Request}
    {value : Option Bytes} (h : behindNginx proxy remoteAddr req value = some r) :
    clientKey r = match value with
      | none => remoteAddr.text
      | some v => if claimed v = [] then proxy.text else claimed v := by
  obtain ⟨hheader, haddr⟩ := behindNginx_spec h
  cases value with
  | none =>
    have hplain : decodeUrl (trimBlanks (proxyAddXForwardedFor remoteAddr none)) =
        remoteAddr.text := by
      show decodeUrlFrom 0 (trimBlanks remoteAddr.text) = remoteAddr.text
      rw [remoteAddr.trimBlanks_eq, remoteAddr.decodeUrlFrom_eq]
    rw [hplain] at hheader
    rw [clientKey_of_header hheader remoteAddr.nonempty
      (by rw [remoteAddr.takeWhile_eq, remoteAddr.trimBlanks_eq]), if_neg remoteAddr.nonempty]
  | some v =>
    rw [decode_forwarded, List.append_assoc] at hheader
    have hfirst : trimBlanks ((decodeUrl (dropBlanks v) ++ (utf8 ", " ++ remoteAddr.text)).takeWhile
        (· != 44)) = claimed v := by
      unfold claimed
      rw [show utf8 ", " ++ remoteAddr.text = 44 :: 32 :: remoteAddr.text from rfl,
        takeWhile_ne_append]
    have hne : decodeUrl (dropBlanks v) ++ (utf8 ", " ++ remoteAddr.text) ≠ [] :=
      List.append_ne_nil_of_right_ne_nil _ (List.cons_ne_nil _ _)
    rw [clientKey_of_header hheader hne hfirst, haddr]

/-- When two clients at one address, each with a header of its own or none, look alike: they
claim the same, or one claims what the other one gets for lack of a claim. -/
def SameClaim (proxy remoteAddr : Address) : Option Bytes → Option Bytes → Prop
  | none, none => True
  | some v, none | none, some v =>
    claimed v = remoteAddr.text ∨ (claimed v = [] ∧ proxy.text = remoteAddr.text)
  | some v, some w =>
    claimed v = claimed w ∨ (claimed v = [] ∧ claimed w = proxy.text) ∨
      (claimed w = [] ∧ claimed v = proxy.text)

/-- The key of a request without a claim is an address, hence not empty. -/
theorem key_eq_address_iff (proxy remoteAddr : Address) (v : Bytes) :
    (if claimed v = [] then proxy.text else claimed v) = remoteAddr.text ↔
      claimed v = remoteAddr.text ∨ (claimed v = [] ∧ proxy.text = remoteAddr.text) := by
  have hne := remoteAddr.nonempty
  split
  · next hv =>
    rw [hv]
    constructor
    · exact fun h => Or.inr ⟨rfl, h⟩
    · rintro (h | h)
      · exact absurd h.symm hne
      · exact h.2
  · next hv =>
    constructor
    · exact Or.inl
    · rintro (h | h)
      · exact h
      · exact absurd h.1 hv

/--
**Two requests of one address share a bucket exactly when they claim alike.**

Behind nginx, whatever else the requests contain.
-/
theorem clientKey_eq_iff (proxy remoteAddr : Address) (req req' r r' : Request)
    (v w : Option Bytes) (h : behindNginx proxy remoteAddr req v = some r)
    (h' : behindNginx proxy remoteAddr req' w = some r') :
    clientKey r = clientKey r' ↔ SameClaim proxy remoteAddr v w := by
  rw [clientKey_behindNginx h, clientKey_behindNginx h']
  cases v with
  | none =>
    cases w with
    | none => exact ⟨fun _ => trivial, fun _ => rfl⟩
    | some w => exact eq_comm.trans (key_eq_address_iff proxy remoteAddr w)
  | some v =>
    cases w with
    | none => exact key_eq_address_iff proxy remoteAddr v
    | some w =>
      have hne := proxy.nonempty
      unfold SameClaim
      dsimp only
      by_cases hv : claimed v = [] <;> by_cases hw : claimed w = []
      · rw [if_pos hv, if_pos hw, hv, hw]
        exact ⟨fun _ => Or.inl rfl, fun _ => rfl⟩
      · rw [if_pos hv, if_neg hw, hv]
        constructor
        · exact fun h => Or.inr (Or.inl ⟨rfl, h.symm⟩)
        · rintro (h | h | h)
          · exact absurd h.symm hw
          · exact h.2.symm
          · exact absurd h.1 hw
      · rw [if_neg hv, if_pos hw, hw]
        constructor
        · exact fun h => Or.inr (Or.inr ⟨rfl, h⟩)
        · rintro (h | h | h)
          · exact absurd h hv
          · exact absurd h.1 hv
          · exact h.2
      · rw [if_neg hv, if_neg hw]
        constructor
        · exact Or.inl
        · rintro (h | h | h)
          · exact h
          · exact absurd h.1 hv
          · exact absurd h.1 hw

/-- nginx and a peer in front of it. -/
def proxyAddress : Address := ⟨utf8 "172.18.0.3", by decide +kernel, by decide +kernel⟩

/-- The address of a client. -/
def peerAddress : Address := ⟨utf8 "10.0.0.7", by decide +kernel, by decide +kernel⟩

/-- A request for the list. -/
def listRequest : Request where
  method := utf8 "GET"
  path := utf8 "/api/problems"
  remoteAddr := []

/-- A client that repeats its header, with another proxy's address behind the comma. -/
theorem clientKey_eq_of_first_element :
    ∃ r r', behindNginx proxyAddress peerAddress listRequest (some (utf8 "a, 10.1.1.1")) = some r ∧
      behindNginx proxyAddress peerAddress listRequest (some (utf8 " %61")) = some r' ∧
      (clientKey r = clientKey r' ↔
        SameClaim proxyAddress peerAddress (some (utf8 "a, 10.1.1.1")) (some (utf8 " %61"))) :=
  ⟨_, _, rfl, rfl, clientKey_eq_iff _ _ _ _ _ _ _ _ rfl rfl⟩

/-- A client that sends no header, and then names an address of its choice. -/
theorem clientKey_chosen : ¬ ∀ (proxy remoteAddr : Address) (req : Request)
    (v w : Option Bytes) (r r' : Request), behindNginx proxy remoteAddr req v = some r →
      behindNginx proxy remoteAddr req w = some r' → clientKey r = clientKey r' := by
  intro h
  have hkey := h proxyAddress peerAddress listRequest none (some (utf8 "1.2.3.4")) _ _ rfl rfl
  exact absurd hkey (by decide)

end MiniOj.Http
