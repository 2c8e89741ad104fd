import MiniOj.Http.Middleware
import MiniOj.Infra.Separator

/-!
# Session cookies there and back

The scanner of `readCookieValue` walks over the header with indices. What it computes is said
with `splitOn`: the value of the first piece that has the name. A browser sends back what stands
before the first `;` of `Set-Cookie`, among other cookies.

* `readCookieValue_eq` — the scanner finds the first piece with the name
* `generateSessionId_eq` — how the random bytes arrive does not matter
* `session_cookies_roundTrip` — the id sent to a browser is the id that comes back
-/

namespace MiniOj.Http

open Infra

variable {s name : Bytes} {b : UInt8}

/-! ## A single piece -/

/-- The part after the first `=`, when the part before it is the name. -/
def pieceValue (name piece : Bytes) : Option Bytes :=
  if 61 ∈ piece ∧ iequals (trimBlanks (piece.takeWhile (· != 61))) name then
    some ((piece.dropWhile (· != 61)).drop 1)
  else none

/-- `pairValue` is the reference reading of a piece. -/
theorem pairValue_eq (piece name : Bytes) : pairValue piece name = pieceValue name piece := by
  unfold pairValue pieceValue findByte
  rw [List.drop_zero, idxOf?_eq_length_takeWhile]
  by_cases hmem : (61 : UInt8) ∈ piece
  · rw [if_pos hmem]
    simp only [Option.map_some, Nat.zero_add, take_length_takeWhile, hmem, true_and]
    rw [← List.drop_drop, drop_length_takeWhile]
  · simp [hmem]

/-- A blank or a tab. -/
theorem isBlank_iff : isBlank b = true ↔ b = 32 ∨ b = 9 := by
  simp [isBlank]

/-- A blank in front is cut. -/
theorem trimBlanks_cons (hb : isBlank b = true) (s : Bytes) :
    trimBlanks (b :: s) = trimBlanks s := by
  unfold trimBlanks dropBlanks
  rw [List.dropWhile_cons_of_pos hb]

/-- Blanks before a name do not count. -/
theorem pieceValue_cons (hb : isBlank b = true) (name piece : Bytes) :
    pieceValue name (b :: piece) = pieceValue name piece := by
  have hne : b ≠ 61 := by
    rcases isBlank_iff.mp hb with rfl | rfl <;> decide
  have hne' : (b != 61) = true := bne_iff_ne.mpr hne
  unfold pieceValue
  simp only [List.takeWhile_cons, List.dropWhile_cons, hne', if_true, trimBlanks_cons hb,
    List.mem_cons, hne.symm, false_or]

/-! ## The whole header -/

/-- The value of the first piece with the name. -/
def firstValue (name header : Bytes) : Option Bytes :=
  (header.splitOn 59).findSome? (pieceValue name)

theorem firstValue_nil (name : Bytes) : firstValue name [] = none := rfl

/-- Blanks at the beginning of the header belong to the first piece. -/
theorem firstValue_cons (hb : isBlank b = true) (name header : Bytes) :
    firstValue name (b :: header) = firstValue name header := by
  have hne : (b == 59) = false := by
    rcases isBlank_iff.mp hb with rfl | rfl <;> decide
  unfold firstValue
  rw [List.splitOn_cons_eq_if_modifyHead, hne]
  cases hsplit : header.splitOn 59 with
  | nil => exact absurd hsplit (List.splitOn_ne_nil 59 header)
  | cons piece pieces =>
    simp only [Bool.false_eq_true, if_false, List.modifyHead_cons, List.findSome?_cons,
      pieceValue_cons hb]

/-- Blanks in front of a header do not matter. -/
theorem firstValue_dropBlanks (name header : Bytes) :
    firstValue name (dropBlanks header) = firstValue name header := by
  unfold dropBlanks
  induction header with
  | nil => rfl
  | cons b header ih =>
    cases hb : isBlank b with
    | false => rw [List.dropWhile_cons_of_neg (by simp [hb])]
    | true => rw [List.dropWhile_cons_of_pos hb, ih, firstValue_cons hb]

/-- A piece in front is looked at first. -/
theorem firstValue_append {piece : Bytes} (h : 59 ∉ piece) (name rest : Bytes) :
    firstValue name (piece ++ 59 :: rest) = (pieceValue name piece).or (firstValue name rest) := by
  unfold firstValue
  rw [List.splitOn_append_cons_self_of_not_mem h, List.findSome?_cons]
  cases pieceValue name piece <;> rfl

/-- A header without semicolons is one piece. -/
theorem firstValue_single {piece : Bytes} (h : 59 ∉ piece) (name : Bytes) :
    firstValue name piece = pieceValue name piece := by
  unfold firstValue
  rw [List.splitOn_eq_singleton h, List.findSome?_cons]
  cases pieceValue name piece <;> rfl

/-! ## The scanner -/

/-- `skipBlanks` moves the index past the blanks. -/
theorem drop_skipBlanks (s : Bytes) (index : Nat) :
    s.drop (skipBlanks s index) = dropBlanks (s.drop index) := by
  unfold skipBlanks dropBlanks
  rw [← List.drop_drop]
  exact drop_length_takeWhile isBlank (s.drop index)

/-- The end of a pair: the value is that of the pair, or it is found in what is left after it. -/
theorem pair_end (s : Bytes) (index : Nat) :
    let pairEnd := (findByte s 59 index).getD s.length
    firstValue name (s.drop index) =
      (pieceValue name ((s.drop index).take (pairEnd - index))).or
        (firstValue name (s.drop (pairEnd + 1))) := by
  unfold findByte
  rw [idxOf?_eq_length_takeWhile]
  dsimp only
  by_cases hmem : (59 : UInt8) ∈ s.drop index
  · rw [if_pos hmem, Option.map_some, Option.getD_some, Nat.add_sub_cancel_left,
      take_length_takeWhile, ← List.drop_drop, ← List.drop_drop, drop_length_takeWhile,
      ← firstValue_append (notMem_takeWhile_ne (s.drop index) 59), ← eq_takeWhile_ne_append hmem]
  · rw [if_neg hmem, Option.map_none, Option.getD_none, ← List.length_drop, List.take_length,
      List.drop_eq_nil_of_le (Nat.le_succ s.length), firstValue_nil, Option.or_none,
      firstValue_single hmem]

/-- `findByte` does not go back. -/
theorem le_findByte (ch : UInt8) {pos : Nat} (hpos : pos ≤ s.length) :
    pos ≤ (findByte s ch pos).getD s.length := by
  unfold findByte
  cases (s.drop pos).idxOf? ch with
  | none => exact hpos
  | some n => exact Nat.le_add_right pos n

/-- **The scanner finds the first piece with the name.** -/
theorem readCookieValueFrom_eq : ∀ (turns index : Nat), s.length ≤ index + turns →
    readCookieValueFrom s name turns index = firstValue name (s.drop index)
  | 0, index, h => by
    rw [List.drop_eq_nil_of_le (by omega)]
    rfl
  | turns + 1, index, h => by
    unfold readCookieValueFrom
    split
    · next hend => rw [List.drop_eq_nil_of_le hend, firstValue_nil]
    rw [← firstValue_dropBlanks, ← drop_skipBlanks]
    dsimp only
    split
    · next hend => rw [List.drop_eq_nil_of_le hend, firstValue_nil]
    · next hbegin =>
      have hskip : index ≤ skipBlanks s index := Nat.le_add_right _ _
      have hend : skipBlanks s index ≤ (findByte s 59 (skipBlanks s index)).getD s.length :=
        le_findByte 59 (by omega)
      rw [pair_end, pairValue_eq, ← readCookieValueFrom_eq turns _ (by omega)]
      split
      · next heq => rw [heq, Option.some_or]
      · next heq => rw [heq, Option.none_or]

/-- **`readCookieValue` is the reference reading of a header.** -/
theorem readCookieValue_eq (cookies name : Bytes) :
    readCookieValue cookies name = firstValue name cookies := by
  unfold readCookieValue
  rw [readCookieValueFrom_eq cookies.length 0 (Nat.le_add_left _ _), List.drop_zero]

/-- What `parseSessionId` is to find in a header. -/
def referenceSessionId (header : Bytes) : Option Bytes :=
  (firstValue Auth.sessionCookieName header).filter Auth.isSessionIdShape

/-- **And so is `parseSessionId` of a request.** -/
theorem parseSessionId_eq (req : Request) :
    parseSessionId req = (req.header? "Cookie").bind referenceSessionId := by
  unfold parseSessionId parseSessionCookie referenceSessionId
  cases req.header? "Cookie" with
  | none => rfl
  | some header => rw [Option.bind_some, Option.bind_some, readCookieValue_eq]

/-! ## What browsers send -/

/-- A cookie as a browser keeps it. -/
structure Cookie where
  name : Bytes
  value : Bytes
  name_plain : 59 ∉ name ∧ 61 ∉ name
  name_trimmed : trimBlanks name = name
  value_plain : 59 ∉ value

/-- A cookie as it stands in a header. -/
def Cookie.pair (c : Cookie) : Bytes := c.name ++ 61 :: c.value

/-- It has no semicolon. -/
theorem Cookie.pair_plain (c : Cookie) : 59 ∉ c.pair := by
  unfold Cookie.pair
  simp [c.name_plain.1, c.value_plain]

/-- Its value is read back under its name. -/
theorem Cookie.pieceValue_pair (c : Cookie) (name : Bytes) :
    pieceValue name c.pair = if iequals c.name name then some c.value else none := by
  have hname := ne_of_notMem c.name_plain.2
  unfold pieceValue Cookie.pair
  rw [List.takeWhile_append_of_pos hname, List.dropWhile_append_of_pos hname]
  simp [c.name_trimmed]

/-- `Cookie: a=1; b=2; …`. -/
def cookieHeader (pairs : List Bytes) : Bytes := (utf8 "; ").intercalate pairs

/-- The first cookie with the name counts. -/
theorem firstValue_cookieHeader (name : Bytes) : ∀ {pairs : List Bytes}, (∀ p ∈ pairs, 59 ∉ p) →
    firstValue name (cookieHeader pairs) = pairs.findSome? (pieceValue name)
  | [], _ => rfl
  | [p], h => by
    rw [List.findSome?_singleton, show cookieHeader [p] = p from List.intercalate_singleton]
    exact firstValue_single (h p List.mem_cons_self) name
  | p :: q :: pairs, h => by
    obtain ⟨hp, hrest⟩ := List.forall_mem_cons.mp h
    have hheader : cookieHeader (p :: q :: pairs) =
        p ++ 59 :: 32 :: cookieHeader (q :: pairs) := by
      unfold cookieHeader
      rw [List.intercalate_cons_cons, List.append_assoc]
      rfl
    rw [hheader, firstValue_append hp, firstValue_cons (by decide),
      firstValue_cookieHeader name hrest, List.findSome?_cons (a := p)]
    cases pieceValue name p <;> rfl

/-- The pair of a `Set-Cookie` header: what stands before the first `;`. -/
def setCookiePair (header : Bytes) : Bytes := header.takeWhile (· != 59)

end MiniOj.Http

namespace MiniOj.Auth

open Infra

/-! ## Session ids -/

/-- The reads deliver these bytes, split in any way. -/
def Delivers (reads : List Bytes) (random : Bytes) : Prop :=
  (∀ read ∈ reads, read ≠ []) ∧ reads.flatten = random

/-- Reads that come in pieces fill the buffer in order. -/
theorem readRandom_eq {bytes : Nat} : ∀ {reads : List Bytes} {buffer : Bytes},
    (∀ read ∈ reads, read ≠ []) → buffer.length + reads.flatten.length = bytes →
      readRandom bytes buffer reads = .ok (buffer ++ reads.flatten)
  | [], buffer, _, h => by
    have hlen : ¬ buffer.length < bytes := by
      simp at h
      omega
    rw [readRandom, if_neg hlen, List.flatten_nil, List.append_nil]
  | read :: reads, buffer, hne, h => by
    obtain ⟨hread, hreads⟩ := List.forall_mem_cons.mp hne
    have hpos : 0 < read.length := List.length_pos_iff.mpr hread
    rw [List.flatten_cons, List.length_append] at h
    have htake : read.take (bytes - buffer.length) = read := List.take_of_length_le (by omega)
    have hempty : ¬ read.isEmpty = true := by simpa using hread
    rw [readRandom, if_pos (by omega), if_neg hempty, htake, List.flatten_cons,
      ← List.append_assoc]
    exact readRandom_eq hreads (by rw [List.length_append]; omega)

/-- **How the bytes arrive does not matter.** -/
theorem generateSessionId_eq {reads : List Bytes} {random : Bytes} (h : Delivers reads random)
    (hlen : random.length = sessionIdBytes) :
    generateSessionId (some reads) = .ok (sessionIdOf random) := by
  obtain ⟨hne, rfl⟩ := h
  unfold generateSessionId randomHex
  rw [if_neg (by decide)]
  dsimp only
  rw [readRandom_eq hne (by rw [List.length_nil, Nat.zero_add]; exact hlen)]
  rfl

/-- Different values have different digits, which are hexadecimal. -/
theorem hexDigit_spec {n : Nat} (hn : n < 16) :
    isXDigit (hexDigits.getD n 0) = true ∧
      ∀ m < 16, hexDigits.getD m 0 = hexDigits.getD n 0 → m = n := by
  have hall : ∀ n ∈ List.range 16, isXDigit (hexDigits.getD n 0) = true ∧
      ∀ m ∈ List.range 16, hexDigits.getD m 0 = hexDigits.getD n 0 → m = n := by decide
  obtain ⟨hdigit, hinj⟩ := hall n (List.mem_range.mpr hn)
  exact ⟨hdigit, fun m hm => hinj m (List.mem_range.mpr hm)⟩

/-- An id is written in digits. -/
theorem all_isXDigit_toHex (bytes : Bytes) : (toHex bytes).all isXDigit = true := by
  unfold toHex
  rw [List.all_flatMap, List.all_eq_true]
  intro b _
  have hb : b.toNat < 256 := UInt8.toNat_lt_size b
  have hhigh := (hexDigit_spec (n := b.toNat / 16) (by omega)).1
  have hlow := (hexDigit_spec (n := b.toNat % 16) (by omega)).1
  rw [List.all_cons, hhigh, List.all_cons, hlow]
  rfl

/-- Every byte can be read off its two digits. -/
theorem toHex_injective : ∀ {r r' : Bytes}, toHex r = toHex r' → r = r'
  | [], [], _ => rfl
  | [], _ :: _, h => by cases h
  | _ :: _, [], h => by cases h
  | b :: r, b' :: r', h => by
    have hb : b.toNat < 256 := UInt8.toNat_lt_size b
    have hb' : b'.toNat < 256 := UInt8.toNat_lt_size b'
    obtain ⟨hhigh, htail⟩ := List.cons_eq_cons.mp h
    obtain ⟨hlow, hrest⟩ := List.cons_eq_cons.mp htail
    have hdiv := (hexDigit_spec (n := b'.toNat / 16) (by omega)).2 _ (by omega) hhigh
    have hmod := (hexDigit_spec (n := b'.toNat % 16) (by omega)).2 _ (by omega) hlow
    have heq : b = b' := UInt8.toNat_inj.mp (by omega)
    rw [heq, toHex_injective hrest]

/-- **Ids have the shape of ids.** -/
theorem isSessionIdShape_sessionIdOf {random : Bytes} (hlen : random.length = sessionIdBytes) :
    isSessionIdShape (sessionIdOf random) = true := by
  unfold isSessionIdShape sessionIdOf
  rw [length_toHex, hlen, all_isXDigit_toHex]
  rfl

/-- It has no other characters. -/
theorem not_mem_of_isXDigit {id : Bytes} (h : id.all isXDigit = true) {ch : UInt8}
    (hch : isXDigit ch = false) : ch ∉ id := by
  intro hmem
  rw [List.all_eq_true.mp h ch hmem] at hch
  cases hch

end MiniOj.Auth

namespace MiniOj.Http

open Infra Auth

/-! ## The round trip -/

/-- The cookie that a browser keeps of a session id. -/
def sessionCookie (random : Bytes) : Cookie where
  name := sessionCookieName
  value := sessionIdOf random
  name_plain := by decide
  name_trimmed := by decide
  value_plain := not_mem_of_isXDigit (all_isXDigit_toHex random) (by decide)

/-- **The browser keeps name and value of the session cookie.** -/
theorem setCookiePair_format (random : Bytes) (ttl : Nat) (secure : Bool) :
    setCookiePair (formatSessionCookie (sessionIdOf random) ttl secure) =
      (sessionCookie random).pair := by
  have hrest : ∃ rest, formatSessionCookie (sessionIdOf random) ttl secure =
      (sessionCookie random).pair ++ 59 :: rest := by
    refine ⟨cookieAttributes.drop 1 ++
      (if 0 < ttl then utf8 ("; Max-Age=" ++ toString ttl) else []) ++
      if secure then utf8 "; Secure" else [], ?_⟩
    unfold formatSessionCookie
    simp only [List.append_assoc]
    rfl
  obtain ⟨rest, hrest⟩ := hrest
  unfold setCookiePair
  rw [hrest, takeWhile_ne_append, takeWhile_ne_eq_self (sessionCookie random).pair_plain]

/-- Cookies of other names are passed over. -/
theorem findSome?_others {others : List Cookie}
    (h : ∀ c ∈ others, iequals c.name sessionCookieName = false) :
    (others.map Cookie.pair).findSome? (pieceValue sessionCookieName) = none := by
  rw [List.findSome?_eq_none_iff]
  intro p hp
  obtain ⟨c, hc, rfl⟩ := List.mem_map.mp hp
  rw [c.pieceValue_pair, h c hc]
  rfl

/--
**Session cookies round-trip.**

`parseSessionId` finds in every header what the reference finds. Whatever 32 random bytes are
read, in however many pieces, the id made of them and sent with `Set-Cookie` is the id of a
request that brings the cookie back behind cookies of other names; different bytes make
different ids.
-/
theorem session_cookies_roundTrip {random random' : Bytes} {reads reads' : List Bytes}
    (hreads : Delivers reads random) (hlen : random.length = 32)
    (hreads' : Delivers reads' random') (hlen' : random'.length = 32) (ttl : Nat) (secure : Bool)
    {before : List Cookie} (hbefore : ∀ c ∈ before, iequals c.name sessionCookieName = false)
    (after : List Cookie) :
    (∀ req, parseSessionId req = (req.header? "Cookie").bind referenceSessionId) ∧
    ∃ id id', generateSessionId (some reads) = .ok id ∧
      generateSessionId (some reads') = .ok id' ∧ (id = id' → random = random') ∧
      ∀ req : Request, req.header? "Cookie" = some (cookieHeader (before.map Cookie.pair ++
          setCookiePair (formatSessionCookie id ttl secure) :: after.map Cookie.pair)) →
        parseSessionId req = some id := by
  refine ⟨parseSessionId_eq, _, _, generateSessionId_eq hreads hlen,
    generateSessionId_eq hreads' hlen', toHex_injective, fun req hheader => ?_⟩
  have hplain : ∀ p ∈ before.map Cookie.pair ++ (sessionCookie random).pair ::
      after.map Cookie.pair, 59 ∉ p := by
    simp only [List.forall_mem_append, List.forall_mem_cons, List.forall_mem_map]
    exact ⟨fun c _ => c.pair_plain, (sessionCookie random).pair_plain, fun c _ => c.pair_plain⟩
  rw [parseSessionId_eq, hheader, Option.bind_some, setCookiePair_format]
  unfold referenceSessionId
  rw [firstValue_cookieHeader _ hplain, List.findSome?_append, findSome?_others hbefore,
    Option.none_or, List.findSome?_cons, Cookie.pieceValue_pair]
  have hname : iequals sessionCookieName sessionCookieName = true := beq_self_eq_true _
  rw [show (sessionCookie random).name = sessionCookieName from rfl, if_pos hname]
  exact Option.filter_some_pos (isSessionIdShape_sessionIdOf hlen)

/-- `theme=dark`. -/
def themeCookie : Cookie where
  name := utf8 "theme"
  value := utf8 "dark"
  name_plain := by decide
  name_trimmed := by decide
  value_plain := by decide

/-- Bytes read in one piece and in two, and another cookie. -/
theorem session_cookies_roundTrip_split :
    (∀ req, parseSessionId req = (req.header? "Cookie").bind referenceSessionId) ∧
    ∃ id id', generateSessionId (some [List.replicate 32 0]) = .ok id ∧
      generateSessionId (some [List.replicate 16 1, List.replicate 16 255]) = .ok id' ∧
      (id = id' → List.replicate 32 (0 : UInt8) = List.replicate 16 1 ++ List.replicate 16 255) ∧
      ∀ req : Request, req.header? "Cookie" = some (cookieHeader ([themeCookie].map Cookie.pair ++
          setCookiePair (formatSessionCookie id 60 true) :: [themeCookie].map Cookie.pair)) →
        parseSessionId req = some id :=
  session_cookies_roundTrip ⟨by decide, rfl⟩ rfl ⟨by decide, rfl⟩ rfl 60 true (by decide)
    [themeCookie]

end MiniOj.Http
