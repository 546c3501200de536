import Agentry.Proofs.Artifact.Octets
/-!
# What a scan finds

The octets of a text that stand outside its string literals are known without a scan, and so is how
many more opening delimiters than closing ones are among them. A scan ends at the first place where
there are as many of the one kind as of the other. Where there is no such place it has counted what
is still open at the end.
-/
namespace Agentry.Sliced

open Agentry.Balanced (Mode octetSpan utf8Size)

/-! ## Outside string literals -/

/-- What may stand between the quotes of a string literal. A backslash takes one octet with it. -/
inductive Quotable : List UInt8 → Prop
  | nil : Quotable []
  | plain {b : UInt8} {rest : List UInt8} (hquote : b ≠ octet '"') (hbackslash : b ≠ octet '\\')
    (hrest : Quotable rest) : Quotable (b :: rest)
  | escape {b : UInt8} {rest : List UInt8} (hrest : Quotable rest) :
    Quotable (octet '\\' :: b :: rest)

/-- The octets outside the string literals, of which the last may be cut off. -/
inductive Outside : List UInt8 → List UInt8 → Prop
  | nil : Outside [] []
  | bare {b : UInt8} {rest outside : List UInt8} (hb : b ≠ octet '"')
    (hrest : Outside rest outside) : Outside (b :: rest) (b :: outside)
  | literal {body rest outside : List UInt8} (hbody : Quotable body)
    (hrest : Outside rest outside) : Outside (octet '"' :: (body ++ octet '"' :: rest)) outside
  | unclosed {body : List UInt8} (hbody : Quotable body) : Outside (octet '"' :: body) []
  | cutEscape {body : List UInt8} (hbody : Quotable body) :
    Outside (octet '"' :: (body ++ [octet '\\'])) []

/-- A string literal is cut off, maybe behind a backslash, or it is closed. -/
def Splits (bytes : List UInt8) : Prop :=
  ∃ body, Quotable body ∧
    (bytes = body ∨ bytes = body ++ [octet '\\'] ∨ ∃ rest, bytes = body ++ octet '"' :: rest)

theorem splits : ∀ bytes : List UInt8, Splits bytes
  | [] => ⟨[], .nil, .inl rfl⟩
  | b :: rest => by
    by_cases hquote : b = octet '"'
    · exact ⟨[], .nil, .inr (.inr ⟨rest, by rw [hquote, List.nil_append]⟩)⟩
    by_cases hbackslash : b = octet '\\'
    -- A backslash takes the next octet with it, so the recursion goes on behind both.
    · subst hbackslash
      match rest with
      | [] => exact ⟨[], .nil, .inr (.inl rfl)⟩
      | c :: rest =>
        obtain ⟨body, hbody, rfl | rfl | ⟨more, rfl⟩⟩ := splits rest
        · exact ⟨_, hbody.escape, .inl rfl⟩
        · exact ⟨_, hbody.escape, .inr (.inl rfl)⟩
        · exact ⟨_, hbody.escape, .inr (.inr ⟨more, rfl⟩)⟩
    · obtain ⟨body, hbody, rfl | rfl | ⟨more, rfl⟩⟩ := splits rest
      · exact ⟨_, hbody.plain hquote hbackslash, .inl rfl⟩
      · exact ⟨_, hbody.plain hquote hbackslash, .inr (.inl rfl)⟩
      · exact ⟨_, hbody.plain hquote hbackslash, .inr (.inr ⟨more, rfl⟩)⟩

theorem exists_outside (bytes : List UInt8) : ∃ outside, Outside bytes outside := by
  induction hlength : bytes.length using Nat.strongRecOn generalizing bytes with
  | ind n ih =>
    cases bytes with
    | nil => exact ⟨[], .nil⟩
    | cons b rest =>
      by_cases hb : b = octet '"'
      · subst hb
        obtain ⟨body, hbody, rfl | rfl | ⟨more, rfl⟩⟩ := splits rest
        · exact ⟨[], .unclosed hbody⟩
        · exact ⟨[], .cutEscape hbody⟩
        · obtain ⟨outside, hmore⟩ := ih more.length (by simp at hlength; omega) more rfl
          exact ⟨outside, .literal hbody hmore⟩
      · obtain ⟨outside, hrest⟩ := ih rest.length (by simp at hlength; omega) rest rfl
        exact ⟨b :: outside, .bare hb hrest⟩

variable {opening ending : UInt8} {bytes : List UInt8}

/-- How many more opening delimiters than closing ones stand outside string literals. -/
def Balance (opening ending : UInt8) (bytes : List UInt8) (d : Int) : Prop :=
  ∃ outside, Outside bytes outside ∧ d = (outside.count opening : Int) - outside.count ending

/-! ## The count of a scan -/

/-- What an octet adds to the count of open delimiters. -/
def weight (opening ending : UInt8) : Mode → UInt8 → Int
  | .outside, b =>
    if b = octet '"' then 0 else if b = opening then 1 else if b = ending then -1 else 0
  | _, _ => 0

def next : Mode → UInt8 → Mode
  | .outside, b => if b = octet '"' then .inside else .outside
  | .inside, b => if b = octet '\\' then .escaped else if b = octet '"' then .outside else .inside
  | .escaped, _ => .inside

def net (opening ending : UInt8) : Mode → List UInt8 → Int
  | _, [] => 0
  | mode, b :: rest => weight opening ending mode b + net opening ending (next mode b) rest

theorem net_quotable {body : List UInt8} (hbody : Quotable body) (rest : List UInt8) :
    net opening ending .inside (body ++ rest) = net opening ending .inside rest := by
  induction hbody with
  | nil => rfl
  | plain hquote hbackslash _ ih => simpa [net, weight, next, hquote, hbackslash] using ih
  | escape _ ih => simpa [net, weight, next] using ih

theorem net_quoted (rest : List UInt8) :
    net opening ending .outside (octet '"' :: rest) = net opening ending .inside rest := by
  simp [net, weight, next]

theorem net_closed (rest : List UInt8) :
    net opening ending .inside (octet '"' :: rest) = net opening ending .outside rest := by
  have hdiffer : octet '"' ≠ octet '\\' := by decide
  simp [net, weight, next, hdiffer]

theorem net_outside (hne : opening ≠ ending) {outside : List UInt8} (h : Outside bytes outside) :
    net opening ending .outside bytes =
      (outside.count opening : Int) - outside.count ending := by
  induction h with
  | nil => rfl
  | @bare b rest outside hb _ ih =>
    have hnext : next .outside b = .outside := if_neg hb
    have hweight : weight opening ending .outside b =
        if b = opening then 1 else if b = ending then -1 else 0 := if_neg hb
    rw [net, hnext, hweight, ih, List.count_cons, List.count_cons]
    simp only [beq_iff_eq]
    by_cases hopen : b = opening
    · rw [if_pos hopen, if_pos hopen, if_neg (fun hend => hne (hopen.symm.trans hend))]
      omega
    · rw [if_neg hopen, if_neg hopen]
      split <;> omega
  | literal hbody _ ih => rw [net_quoted, net_quotable hbody, net_closed, ih]
  | @unclosed body hbody =>
    rw [net_quoted, ← List.append_nil body, net_quotable hbody]
    rfl
  | cutEscape hbody =>
    rw [net_quoted, net_quotable hbody]
    rfl

theorem balance_iff (hne : opening ≠ ending) {d : Int} :
    Balance opening ending bytes d ↔ d = net opening ending .outside bytes := by
  constructor
  · rintro ⟨outside, houtside, rfl⟩
    exact (net_outside hne houtside).symm
  · rintro rfl
    obtain ⟨outside, houtside⟩ := exists_outside bytes
    exact ⟨outside, houtside, net_outside hne houtside⟩

/-! ## One octet and a whole count -/

/-- How a count ends that begins at a depth: at the first octet that brings it to zero, or with what
is open at the end. The first octet has the offset `n`. -/
inductive Counted (opening ending : UInt8) (depth : Nat) (mode : Mode) (n : Nat)
    (bytes : List UInt8) : Except ScanError Nat → Prop
  | closed {k : Nat} (hk : k < bytes.length)
    (hzero : depth + net opening ending mode (bytes.take (k + 1)) = 0)
    (hpositive : ∀ j ≤ k, 0 < depth + net opening ending mode (bytes.take j)) :
    Counted opening ending depth mode n bytes (.ok (n + k))
  | unterminated {left : Nat}
    (hpositive : ∀ j, 0 < depth + net opening ending mode (bytes.take j))
    (hleft : (left : Int) = depth + net opening ending mode bytes) :
    Counted opening ending depth mode n bytes (.error (.unterminated left))

theorem Counted.cons {depth depth' n : Nat} {mode : Mode} {b : UInt8} {rest : List UInt8}
    {r : Except ScanError Nat} (hpos : 0 < depth)
    (hdepth : (depth' : Int) = depth + weight opening ending mode b)
    (h : Counted opening ending depth' (next mode b) (n + 1) rest r) :
    Counted opening ending depth mode n (b :: rest) r := by
  have hnet : ∀ more, (depth : Int) + net opening ending mode (b :: more) =
      depth' + net opening ending (next mode b) more := by
    intro more
    rw [net, hdepth, Int.add_assoc]
  cases h with
  | @closed k hk hzero hpositive =>
    rw [Nat.add_assoc, Nat.add_comm 1]
    refine .closed (by simpa using hk) ((hnet _).trans hzero) fun j hj => ?_
    cases j with
    | zero => simpa [net] using hpos
    | succ j =>
      rw [List.take_succ_cons, hnet]
      exact hpositive j (by omega)
  | unterminated hpositive hleft =>
    refine .unterminated (fun j => ?_) (hleft.trans (hnet rest).symm)
    cases j with
    | zero => simpa [net] using hpos
    | succ j =>
      rw [List.take_succ_cons, hnet]
      exact hpositive j

section Count

variable (opening ending : Char)

/-- An octet closes the last open delimiter, or it changes the depth by its weight, which leaves at
least one open. -/
theorem countFrom_cons (depth : Nat) (mode : Mode) (n : Nat) (b : UInt8) (rest : List UInt8) :
    (depth + 1 + weight (octet opening) (octet ending) mode b = 0 ∧
      countFrom opening ending (depth + 1) mode n (b :: rest) = some (.ok n)) ∨
    ∃ depth' : Nat,
      ((depth' + 1 : Nat) : Int) =
        (depth + 1 : Nat) + weight (octet opening) (octet ending) mode b ∧
      countFrom opening ending (depth + 1) mode n (b :: rest) =
        countFrom opening ending (depth' + 1) (next mode b) (n + 1) rest := by
  cases mode with
  | escaped => exact .inr ⟨depth, by simp [weight], rfl⟩
  | inside => exact .inr ⟨depth, by simp [weight], countFrom_inside (depth + 1) n b rest⟩
  | outside =>
    rw [countFrom_outside, weight, next]
    by_cases hquote : b = octet '"'
    · simp only [if_pos hquote]
      exact .inr ⟨depth, by omega, rfl⟩
    simp only [if_neg hquote]
    by_cases hopen : b = octet opening
    · simp only [if_pos hopen]
      exact .inr ⟨depth + 1, by omega, rfl⟩
    simp only [if_neg hopen]
    by_cases hend : b = octet ending
    · simp only [if_pos hend]
      cases depth with
      | zero => exact .inl ⟨by omega, rfl⟩
      | succ depth => exact .inr ⟨depth, by omega, rfl⟩
    · simp only [if_neg hend]
      exact .inr ⟨depth, by omega, rfl⟩

theorem countFrom_counted (bytes : List UInt8) (depth : Nat) (mode : Mode) (n : Nat) :
    ∃ r, countFrom opening ending (depth + 1) mode n bytes = some r ∧
      Counted (octet opening) (octet ending) (depth + 1) mode n bytes r := by
  induction bytes generalizing depth mode n with
  | nil =>
    refine ⟨.error (.unterminated (depth + 1)), ?_, .unterminated (fun j => ?_) ?_⟩
    · cases mode <;> rfl
    · simp [net]
    · simp [net]
  | cons b rest ih =>
    rcases countFrom_cons opening ending depth mode n b rest with
      ⟨hzero, hcount⟩ | ⟨depth', hdepth, hcount⟩
    · refine ⟨_, hcount, .closed (k := 0) ?_ ?_ ?_⟩
      · simp
      · simpa [net] using hzero
      · intro j hj
        obtain rfl : j = 0 := by omega
        simp [net]
    · obtain ⟨r, hr, hcounted⟩ := ih depth' (next mode b) (n + 1)
      exact ⟨r, hcount.trans hr, hcounted.cons (Nat.succ_pos depth) hdepth⟩

end Count

/-! ## The opening delimiter -/

def between (bytes : List UInt8) (start stop : Nat) : List UInt8 :=
  (bytes.take stop).drop start

/-- An opening delimiter that no line feed parts from the origin. -/
def OpensAt (bytes : List UInt8) (origin : Nat) (opening : UInt8) (p : Nat) : Prop :=
  origin ≤ p ∧ bytes[p]? = some opening ∧
    ∀ q, origin ≤ q → q ≤ p → bytes[q]? ≠ some (octet '\n')

def OpensFirst (bytes : List UInt8) (origin : Nat) (opening : UInt8) (p : Nat) : Prop :=
  OpensAt bytes origin opening p ∧ ∀ q < p, ¬ OpensAt bytes origin opening q

/-- The octets from an origin to the first line feed or to the end. -/
structure LineEnds (bytes : List UInt8) (origin stop : Nat) : Prop where
  origin_le : origin ≤ stop
  le_length : stop ≤ bytes.length
  inLine : ∀ q, origin ≤ q → q < stop → bytes[q]? ≠ some (octet '\n')
  ends : stop = bytes.length ∨ bytes[stop]? = some (octet '\n')

theorem lineEnds {origin : Nat} (h : origin ≤ bytes.length) :
    LineEnds bytes origin ((((bytes.drop origin).findIdx? (· == octet '\n')).map
      (origin + ·)).getD bytes.length) := by
  cases hfind : (bytes.drop origin).findIdx? (· == octet '\n') with
  | none =>
    rw [List.findIdx?_eq_none_iff] at hfind
    refine ⟨h, Nat.le_refl _, fun q hq _ hfeed => ?_, Or.inl rfl⟩
    obtain ⟨i, rfl⟩ := Nat.exists_eq_add_of_le hq
    rw [← List.getElem?_drop] at hfeed
    simpa using hfind _ (List.mem_of_getElem? hfeed)
  | some i =>
    obtain ⟨hi, hfeed, hbefore⟩ := List.findIdx?_eq_some_iff_getElem.mp hfind
    have hlength : origin + i < bytes.length := by
      rw [List.length_drop] at hi
      omega
    refine ⟨Nat.le_add_right _ _, Nat.le_of_lt hlength, fun q hq hlt hq' => ?_, Or.inr ?_⟩
    · obtain ⟨j, rfl⟩ := Nat.exists_eq_add_of_le hq
      rw [← List.getElem?_drop] at hq'
      obtain ⟨hj, hvalue⟩ := List.getElem?_eq_some_iff.mp hq'
      have hlt : j < i := by
        simp at hlt
        omega
      exact hbefore j hlt (by simp [hvalue])
    · change bytes[origin + i]? = _
      rw [← List.getElem?_drop, List.getElem?_eq_getElem hi]
      simpa using hfeed

theorem opensAt_iff {origin stop p : Nat} (h : LineEnds bytes origin stop) :
    OpensAt bytes origin opening p ↔ origin ≤ p ∧ p < stop ∧ bytes[p]? = some opening := by
  constructor
  · rintro ⟨horigin, hp, hline⟩
    refine ⟨horigin, Nat.lt_of_not_le fun hstop => ?_, hp⟩
    rcases h.ends with rfl | hfeed
    · rw [List.getElem?_eq_none hstop] at hp
      cases hp
    · exact hline stop h.origin_le hstop hfeed
  · rintro ⟨horigin, hstop, hp⟩
    exact ⟨horigin, hp, fun q hq hle => h.inLine q hq (by omega)⟩

theorem getElem?_between {origin stop i : Nat} (h : origin + i < stop) :
    (between bytes origin stop)[i]? = bytes[origin + i]? := by
  rw [between, List.getElem?_drop, List.getElem?_take_of_lt h]

theorem length_between {start stop : Nat} (h : stop ≤ bytes.length) :
    (between bytes start stop).length = stop - start := by
  rw [between, List.length_drop, List.length_take_of_le h]

theorem not_opensAt_of_findIdx? {origin stop : Nat} (h : LineEnds bytes origin stop)
    (hfind : (between bytes origin stop).findIdx? (· == opening) = none) (p : Nat) :
    ¬ OpensAt bytes origin opening p := by
  rw [opensAt_iff h]
  rintro ⟨horigin, hstop, hp⟩
  obtain ⟨i, rfl⟩ := Nat.exists_eq_add_of_le horigin
  rw [← getElem?_between hstop] at hp
  simpa using List.findIdx?_eq_none_iff.mp hfind _ (List.mem_of_getElem? hp)

theorem opensFirst_of_findIdx? {origin stop i : Nat} (h : LineEnds bytes origin stop)
    (hfind : (between bytes origin stop).findIdx? (· == opening) = some i) :
    OpensFirst bytes origin opening (origin + i) := by
  obtain ⟨hi, hopening, hbefore⟩ := List.findIdx?_eq_some_iff_getElem.mp hfind
  have hstop : origin + i < stop := by
    rw [length_between h.le_length] at hi
    omega
  constructor
  · rw [opensAt_iff h, ← getElem?_between hstop, List.getElem?_eq_getElem hi]
    exact ⟨Nat.le_add_right _ _, hstop, by simpa using hopening⟩
  · intro q hq hopens
    obtain ⟨horigin, hlt, hvalue⟩ := (opensAt_iff h).mp hopens
    obtain ⟨j, rfl⟩ := Nat.exists_eq_add_of_le horigin
    rw [← getElem?_between hlt] at hvalue
    obtain ⟨hj, hvalue⟩ := List.getElem?_eq_some_iff.mp hvalue
    exact hbefore j (by omega) (by simp [hvalue])

/-! ## Whole scans -/

/-- What a scan from an origin has to find. -/
inductive Scanned (bytes : List UInt8) (origin : Nat) (opening ending : UInt8) :
    Except ScanError (Nat × Nat) → Prop
  | noOpener (hnone : ∀ p, ¬ OpensAt bytes origin opening p) :
    Scanned bytes origin opening ending (.error .noOpener)
  | closed {start stop : Nat} (hstart : OpensFirst bytes origin opening start)
    (hlt : start < stop) (hle : stop ≤ bytes.length)
    (hzero : Balance opening ending (between bytes start stop) 0)
    (hpositive : ∀ m, start < m → m < stop →
      ∃ d, 0 < d ∧ Balance opening ending (between bytes start m) d) :
    Scanned bytes origin opening ending (.ok (start, stop))
  | unterminated {start left : Nat} (hstart : OpensFirst bytes origin opening start)
    (hnever : ∀ m, start < m → m ≤ bytes.length →
      ¬ Balance opening ending (between bytes start m) 0)
    (hleft : Balance opening ending (between bytes start bytes.length) left) :
    Scanned bytes origin opening ending (.error (.unterminated left))

theorem OpensFirst.unique {origin p q : Nat} (hp : OpensFirst bytes origin opening p)
    (hq : OpensFirst bytes origin opening q) : p = q := by
  rcases Nat.lt_trichotomy p q with h | h | h
  · exact absurd hp.1 (hq.2 p h)
  · exact h
  · exact absurd hq.1 (hp.2 q h)

theorem Balance.unique (hne : opening ≠ ending) {d d' : Int} (h : Balance opening ending bytes d)
    (h' : Balance opening ending bytes d') : d = d' :=
  ((balance_iff hne).mp h).trans ((balance_iff hne).mp h').symm

theorem Scanned.unique (hne : opening ≠ ending) {origin : Nat}
    {r r' : Except ScanError (Nat × Nat)} (h : Scanned bytes origin opening ending r)
    (h' : Scanned bytes origin opening ending r') : r = r' := by
  -- Two closed scans of different lengths: the longer one passes a balance of zero.
  have hshorter : ∀ {start stop stop' : Nat}, start < stop →
      Balance opening ending (between bytes start stop) 0 →
      (∀ m, start < m → m < stop' → ∃ d, 0 < d ∧ Balance opening ending (between bytes start m) d) →
      ¬ stop < stop' := by
    intro start stop stop' hlt hzero hpositive hless
    obtain ⟨d, hd, hbalance⟩ := hpositive stop hlt hless
    exact absurd (hbalance.unique hne hzero) (by omega)
  cases h with
  | noOpener hnone =>
    cases h' with
    | noOpener _ => rfl
    | closed hstart' _ _ _ _ => exact absurd hstart'.1 (hnone _)
    | unterminated hstart' _ _ => exact absurd hstart'.1 (hnone _)
  | @closed start stop hstart hlt hle hzero hpositive =>
    cases h' with
    | noOpener hnone' => exact absurd hstart.1 (hnone' _)
    | @closed start' stop' hstart' hlt' _ hzero' hpositive' =>
      obtain rfl := hstart.unique hstart'
      have hnot := hshorter hlt hzero hpositive'
      have hnot' := hshorter hlt' hzero' hpositive
      obtain rfl : stop = stop' := by omega
      rfl
    | unterminated hstart' hnever' _ =>
      obtain rfl := hstart.unique hstart'
      exact absurd hzero (hnever' _ hlt hle)
  | unterminated hstart hnever hleft =>
    cases h' with
    | noOpener hnone' => exact absurd hstart.1 (hnone' _)
    | closed hstart' hlt' hle' hzero' _ =>
      obtain rfl := hstart.unique hstart'
      exact absurd hzero' (hnever _ hlt' hle')
    | unterminated hstart' _ hleft' =>
      obtain rfl := hstart.unique hstart'
      rw [Int.ofNat_inj.mp (hleft.unique hne hleft')]

/-- An opening delimiter counts for one, and what follows is counted as it stands. -/
theorem net_between (ending : UInt8) {start : Nat} (hopening : bytes[start]? = some opening)
    (hquote : opening ≠ octet '"') (j : Nat) :
    net opening ending .outside (between bytes start (start + 1 + j)) =
      1 + net opening ending .outside ((bytes.drop (start + 1)).take j) := by
  obtain ⟨hstart, hvalue⟩ := List.getElem?_eq_some_iff.mp hopening
  have hlength : start + 1 + j - start = j + 1 := by omega
  rw [between, List.drop_take, hlength, List.drop_eq_getElem_cons hstart, hvalue,
    List.take_succ_cons, net]
  simp [weight, next, hquote]

theorem octetsIn?_eq {start stop : Nat} (h : start ≤ stop) (hle : stop ≤ bytes.length) :
    octetsIn? bytes ⟨start, stop⟩ = some (between bytes start stop) :=
  if_pos ⟨h, hle⟩

theorem octetsIn?_rest {start : Nat} (h : start ≤ bytes.length) :
    octetsIn? bytes ⟨start, bytes.length⟩ = some (bytes.drop start) := by
  rw [octetsIn?_eq h (Nat.le_refl _), between, List.take_length]

/-- A count from behind an opening delimiter ends as a scan has to. -/
theorem Counted.scanned (hne : opening ≠ ending) (hquote : opening ≠ octet '"') {origin start : Nat}
    (hstart : OpensFirst bytes origin opening start) {r : Except ScanError Nat}
    (h : Counted opening ending 1 .outside 0 (bytes.drop (start + 1)) r) :
    Scanned bytes origin opening ending (r.map fun n => (start, start + 1 + n + 1)) := by
  have hnet := net_between ending hstart.1.2.1 hquote
  have hlength : (bytes.drop (start + 1)).length = bytes.length - (start + 1) := List.length_drop
  cases h with
  | @closed k hk hzero hpositive =>
    rw [Nat.zero_add]
    refine .closed hstart (by omega) (by omega) ?_ fun m hm hless => ?_
    · rw [balance_iff hne, Nat.add_assoc, hnet]
      exact hzero.symm
    · obtain ⟨j, rfl⟩ := Nat.exists_eq_add_of_le hm
      refine ⟨_, ?_, (balance_iff hne).mpr rfl⟩
      rw [hnet]
      exact hpositive j (by omega)
  | @unterminated left hpositive hleft =>
    refine .unterminated hstart (fun m hm _ => ?_) ?_
    · obtain ⟨j, rfl⟩ := Nat.exists_eq_add_of_le hm
      rw [balance_iff hne, hnet]
      have := hpositive j
      omega
    · have hend : start + 1 + (bytes.drop (start + 1)).length = bytes.length := by
        obtain ⟨hbound, -⟩ := List.getElem?_eq_some_iff.mp hstart.1.2.1
        omega
      rw [balance_iff hne, ← hend, hnet, List.take_length]
      exact hleft

/-- The two ends that a scan answers with, as an extent. -/
def toExtent (r : Except ScanError (Nat × Nat)) : Except ScanError Extent :=
  r.map fun ends => ⟨ends.1, ends.2⟩

theorem toExtent_inj {r r' : Except ScanError (Nat × Nat)} (h : toExtent r = toExtent r') :
    r = r' := by
  cases r with
  | error e => cases r' with
    | error e' => exact congrArg _ (Except.error.inj h)
    | ok _ => cases h
  | ok ends => cases r' with
    | error _ => cases h
    | ok ends' =>
      obtain ⟨hstart, hstop⟩ := Extent.mk.inj (Except.ok.inj h)
      exact congrArg _ (Prod.ext hstart hstop)

/-- A scan of octets always has an answer, and it is what the scan has to find. -/
theorem balanced?_scanned {opening ending : Char} (hne : octet opening ≠ octet ending)
    (hquote : octet opening ≠ octet '"') {origin : Nat} (h : origin ≤ bytes.length) :
    ∃ r, Scanned bytes origin (octet opening) (octet ending) r ∧
      balanced? bytes origin (octet opening) (octet ending) = some (toExtent r) := by
  have hline := lineEnds h
  simp only [balanced?, octetsIn?_rest h, Option.bind_eq_bind, Option.bind_some,
    octetsIn?_eq hline.origin_le hline.le_length]
  cases hfind : (between bytes origin ((((bytes.drop origin).findIdx? (· == octet '\n')).map
      (origin + ·)).getD bytes.length)).findIdx? (· == octet opening) with
  | none => exact ⟨_, .noOpener (not_opensAt_of_findIdx? hline hfind), rfl⟩
  | some i =>
    have hstart := opensFirst_of_findIdx? hline hfind
    obtain ⟨hbound, -⟩ := List.getElem?_eq_some_iff.mp hstart.1.2.1
    obtain ⟨r, hcount, hcounted⟩ := countFrom_counted opening ending
      (bytes.drop (origin + i + 1)) 0 .outside 0
    refine ⟨_, hcounted.scanned hne hquote hstart, ?_⟩
    simp only [countFrom, inString, isEscaped, Nat.zero_add] at hcount
    simp only [octetsIn?_rest (Nat.succ_le_of_lt hbound), Option.bind_some, hcount]
    cases r <;> rfl

/-! ## Scans of a text -/

section Text

variable {opening ending : Char}

/-- The ends of what a scan from between two characters isolates. -/
theorem octetSpan_eq_map (before rest : String) :
    octetSpan (before ++ rest) (utf8Size before.toList) opening ending =
      (Balanced.span opening ending rest.toList).map fun s =>
        ((extentFrom (utf8Size before.toList) s).start,
          (extentFrom (utf8Size before.toList) s).stop) := by
  simp only [octetSpan, String.toList_append, Balanced.splitAtOctet_append]
  cases Balanced.span opening ending rest.toList <;> rfl

theorem balanced?_octetSpan (hopening : IsAscii opening) (hending : IsAscii ending)
    (before rest : String) :
    balanced? (octets (before ++ rest).toList) (utf8Size before.toList) (octet opening)
        (octet ending) =
      some (toExtent (octetSpan (before ++ rest) (utf8Size before.toList) opening ending)) := by
  rw [octetSpan_eq_map, String.toList_append, balanced?_octets hopening hending]
  cases Balanced.span opening ending rest.toList <;> rfl

theorem isValid_of_append {text : String} (front back : List Char) {n : Nat}
    (htext : text.toList = front ++ back) (hn : n = utf8Size front) :
    (String.Pos.Raw.mk n).IsValid text := by
  rw [String.Pos.Raw.isValid_iff_exists_append]
  refine ⟨String.ofList front, String.ofList back, ?_, ?_⟩
  · rw [← String.toList_inj, htext]
    simp
  · have hsize : utf8Size (String.ofList front).toList = _ := Balanced.utf8Size_toList _
    rw [String.toList_ofList] at hsize
    exact congrArg String.Pos.Raw.mk (hn.trans hsize)

/-- Both ends of what a scan isolates lie between two characters. -/
theorem isValid_of_octetSpan {before rest : String} {start stop : Nat}
    (h : octetSpan (before ++ rest) (utf8Size before.toList) opening ending = .ok (start, stop)) :
    (String.Pos.Raw.mk start).IsValid (before ++ rest) ∧
      (String.Pos.Raw.mk stop).IsValid (before ++ rest) := by
  rw [octetSpan_eq_map] at h
  cases hspan : Balanced.span opening ending rest.toList with
  | error e =>
    rw [hspan] at h
    cases h
  | ok s =>
    rw [hspan] at h
    obtain ⟨rfl, rfl⟩ := Prod.mk.inj (Except.ok.inj h)
    obtain ⟨hrest, -⟩ := Balanced.eq_of_span hspan
    constructor
    · apply isValid_of_append (before.toList ++ s.before) (s.literal ++ s.after)
      · rw [String.toList_append, hrest, List.append_assoc]
      · simp [extentFrom]
    · apply isValid_of_append (before.toList ++ s.before ++ s.literal) s.after
      · simp only [String.toList_append, hrest, List.append_assoc]
      · simp [extentFrom, Nat.add_assoc]

/-- A scan of a text from between two characters gives what it has to find and nothing else. What it
isolates ends between two characters as well, and its count never falls below zero. -/
theorem octetSpan_exact {text : String} {origin : Nat}
    (horigin : (String.Pos.Raw.mk origin).IsValid text) (hopening : IsAscii opening)
    (hending : IsAscii ending) (hne : opening ≠ ending) (hquote : opening ≠ '"') :
    (∀ r, octetSpan text origin opening ending = r ↔
      Scanned (octets text.toList) origin (octet opening) (octet ending) r) ∧
    (∀ start stop, octetSpan text origin opening ending = .ok (start, stop) →
      (String.Pos.Raw.mk start).IsValid text ∧ (String.Pos.Raw.mk stop).IsValid text) ∧
    balanced? (octets text.toList) origin (octet opening) (octet ending) =
      some (toExtent (octetSpan text origin opening ending)) := by
  obtain ⟨before, rest, rfl, hbefore⟩ := String.Pos.Raw.isValid_iff_exists_append.mp horigin
  obtain rfl : origin = utf8Size before.toList := by
    rw [Balanced.utf8Size_toList]
    exact congrArg String.Pos.Raw.byteIdx hbefore
  have hne' : octet opening ≠ octet ending := mt (octet_inj hopening hending).mp hne
  have hquote' : octet opening ≠ octet '"' :=
    mt (octet_inj hopening ascii_quote_backslash.1).mp hquote
  have hlength : utf8Size before.toList ≤ (octets (before ++ rest).toList).length := by
    simp [String.toList_append]
  have hsame := balanced?_octetSpan hopening hending before rest
  obtain ⟨r, hscanned, hbalanced⟩ := balanced?_scanned hne' hquote' hlength
  obtain rfl : r = octetSpan (before ++ rest) (utf8Size before.toList) opening ending :=
    toExtent_inj (Option.some.inj (hbalanced.symm.trans hsame))
  refine ⟨fun r => ⟨?_, hscanned.unique hne'⟩, fun start stop => isValid_of_octetSpan, hsame⟩
  rintro rfl
  exact hscanned

/-- The delimiter that a string hides behind an escaped quote does not end the scan. -/
theorem octetSpan_exact_hiddenDelimiter :
    octetSpan "é: \x7b\"\\\"\x7d\"\x7d\x7d" 2 '\x7b' '\x7d' = .ok (4, 11) ∧
      Scanned (octets "é: \x7b\"\\\"\x7d\"\x7d\x7d".toList) 2 (octet '\x7b') (octet '\x7d')
        (.ok (4, 11)) := by
  have horigin : (String.Pos.Raw.mk 2).IsValid "é: \x7b\"\\\"\x7d\"\x7d\x7d" :=
    isValid_of_append ['é'] ": \x7b\"\\\"\x7d\"\x7d\x7d".toList (by decide) (by decide)
  have hspan : octetSpan "é: \x7b\"\\\"\x7d\"\x7d\x7d" 2 '\x7b' '\x7d' = .ok (4, 11) := rfl
  have hexact := octetSpan_exact horigin (show IsAscii '\x7b' by decide)
    (show IsAscii '\x7d' by decide) (by decide) (by decide)
  exact ⟨hspan, (hexact.1 _).mp hspan⟩

end Text

end Agentry.Sliced
