import P4Net.AddressTexts

/-!
# The text of an IPv6 address

`str(IPv6Address)` writes eight groups and replaces the longest run of zero groups by `::`.
Since Python 3.13 it writes the last two groups of an IPv4-mapped address as a dotted quad;
the parameter `dotted` says which version it is.

* `compressHextets` : the scan for the longest run, and `compressHextets_cases`.
* `groupsValue_skipped` : what is read from groups around a `::`.
* `ipv6Packed_ipv6Plain` : an address without a dotted quad is read back.
* `ipv4Text`, `ipv6Text` : the texts of packed addresses, and `ipv4Packed_ipv4Text`.
-/

namespace P4Net
namespace TextLiterals

open BigEndian

/-! ### Groups -/

/-- The groups of an address, the highest first. -/
def groups : Nat → Nat → List Nat
  | 0, _ => []
  | k + 1, ip => ip / 65536 ^ k % 65536 :: groups k ip

/-- The number that groups denote after `acc`. -/
def foldGroups (acc : Nat) (gs : List Nat) : Nat := gs.foldl (fun n g => n * 65536 + g) acc

theorem length_groups
    (k ip : Nat) :
    (groups k ip).length = k := by
  induction k with
  | zero => rfl
  | succ k ih => simp [groups, ih]

theorem lt_of_mem_groups
    {k ip g : Nat}
    (h : g ∈ groups k ip) :
    g < 65536 := by
  induction k with
  | zero => cases h
  | succ k ih =>
      rcases List.mem_cons.mp h with rfl | h
      · exact Nat.mod_lt _ (by decide)
      · exact ih h

theorem foldGroups_groups
    (k ip acc : Nat) :
    foldGroups acc (groups k ip) = acc * 65536 ^ k + ip % 65536 ^ k := by
  induction k generalizing acc with
  | zero => simp [groups, foldGroups, Nat.mod_one]
  | succ k ih =>
      have hstep : foldGroups acc (groups (k + 1) ip) =
          foldGroups (acc * 65536 + ip / 65536 ^ k % 65536) (groups k ip) := rfl
      rw [hstep, ih, Nat.mod_pow_succ, pow_succ]
      ring

theorem foldGroups_eq
    (acc : Nat) (gs : List Nat) :
    foldGroups acc gs = acc * 65536 ^ gs.length + foldGroups 0 gs := by
  induction gs generalizing acc with
  | nil => simp [foldGroups]
  | cons g rest ih =>
      have hstep : ∀ a, foldGroups a (g :: rest) = foldGroups (a * 65536 + g) rest := fun _ => rfl
      rw [hstep, hstep, ih, ih (0 * 65536 + g), List.length_cons, pow_succ]
      ring

theorem foldGroups_zeros
    (acc n : Nat) :
    foldGroups acc (List.replicate n 0) = acc * 65536 ^ n := by
  induction n generalizing acc with
  | zero => simp [foldGroups]
  | succ n ih =>
      have hstep : foldGroups acc (List.replicate (n + 1) 0) =
          foldGroups (acc * 65536) (List.replicate n 0) := by
        simp [foldGroups, List.replicate_succ]
      rw [hstep, ih, pow_succ]
      ring

/-- `%x` of a group. -/
def hextet (g : Nat) : Text := Nat.toDigits 16 g

theorem ipv6Hextet_hextet
    {g : Nat}
    (h : g < 65536) :
    ipv6Hextet (hextet g) = some g := by
  have hdigits := (plainRun_toDigits (by decide : 1 < 16) (by decide) g).1
  have hall : (hextet g).all (fun c => (digitValue 16 c).isSome) = true := by
    refine List.all_eq_true.mpr fun c hc => ?_
    exact hdigits (false, c) (List.mem_map.mpr ⟨c, hc, rfl⟩)
  have hlength : (hextet g).length ≤ 4 :=
    (Nat.length_toDigits_le_iff (by decide) (by decide)).mpr h
  rw [ipv6Hextet, if_pos ⟨hall, hlength⟩, hextet,
    scanDigits_toDigits (by decide) (by decide)]
  rfl

theorem isAlnum_of_mem_hextet
    {g : Nat} {c : Char}
    (h : c ∈ hextet g) :
    isAlnum c = true :=
  isAlnum_of_mem_toDigits (by decide) (by decide) h

theorem hextet_ne_nil
    (g : Nat) :
    hextet g ≠ [] :=
  Nat.toDigits_ne_nil

theorem hextet_eq_zero
    {g : Nat}
    (h : hextet g = ['0']) :
    g = 0 := by
  have hscan := scanDigits_toDigits (by decide : 1 < 16) (by decide) g
  rw [show Nat.toDigits 16 g = ['0'] from h] at hscan
  exact (Prod.mk.inj (Option.some.inj hscan)).1.symm

theorem hextetsValue_map
    {gs : List Nat}
    (h : ∀ g ∈ gs, g < 65536) :
    hextetsValue (gs.map hextet) = some (foldGroups 0 gs) := by
  have hfold : ∀ acc, (gs.map hextet).foldlM
      (fun acc part => (ipv6Hextet part).map (fun v => acc * 2 ^ 16 + v)) acc =
        some (foldGroups acc gs) := by
    induction gs with
    | nil => exact fun acc => rfl
    | cons g rest ih =>
        intro acc
        rw [List.map_cons, List.foldlM_cons, ipv6Hextet_hextet (h g (by simp))]
        exact ih (fun g' hg' => h g' (List.mem_cons_of_mem _ hg')) _
  exact hfold 0

/-! ### The longest run of zeros -/

/-- A run of zero groups: where it starts, if it has started, and its length. -/
structure ZeroRun where
  start : Option Nat
  length : Nat

/-- The longest run so far, and the run that the scan is in. -/
structure RunScan where
  best : ZeroRun
  current : ZeroRun

/-- The body of the loop of `_compress_hextets`. -/
def scanStep (scan : RunScan) (e : Text × Nat) : RunScan :=
  if e.1 = ['0'] then
    let current := ⟨some (scan.current.start.getD e.2), scan.current.length + 1⟩
    if scan.best.length < current.length then ⟨current, current⟩ else ⟨scan.best, current⟩
  else ⟨scan.best, ⟨none, 0⟩⟩

/-- `_compress_hextets`. -/
def compressHextets (hextets : List Text) : List Text :=
  let best := (hextets.zipIdx.foldl scanStep ⟨⟨none, 0⟩, ⟨none, 0⟩⟩).best
  if 1 < best.length then
    let start := best.start.getD 0
    let stop := start + best.length
    -- For zeros at the end of the address.
    let padded := if stop = hextets.length then hextets ++ [[]] else hextets
    let replaced := padded.take start ++ [[]] ++ padded.drop stop
    -- For zeros at the beginning of the address.
    if start = 0 then [] :: replaced else replaced
  else hextets

/-- The groups from `start` on are zeros, as many as the run is long. -/
def ZerosFrom (done : List Text) (start length : Nat) : Prop :=
  start + length ≤ done.length ∧
    ∀ i, start ≤ i → i < start + length → done[i]? = some ['0']

/-- What the scan of the groups `done` has found. -/
structure ScanOk (done : List Text) (scan : RunScan) : Prop where
  best : 0 < scan.best.length →
    ∃ start, scan.best.start = some start ∧ ZerosFrom done start scan.best.length
  current : scan.current = ⟨none, 0⟩ ∨ ∃ start, scan.current.start = some start ∧
    start + scan.current.length = done.length ∧ ZerosFrom done start scan.current.length

theorem ZerosFrom.append
    {done : List Text} {start length : Nat}
    (h : ZerosFrom done start length) (rest : List Text) :
    ZerosFrom (done ++ rest) start length := by
  refine ⟨by rw [List.length_append]; exact h.1.trans (Nat.le_add_right _ _), fun i hlo hhi => ?_⟩
  rw [List.getElem?_append_left (lt_of_lt_of_le hhi h.1)]
  exact h.2 i hlo hhi

/-- One more zero group. -/
theorem ZerosFrom.concat
    {done : List Text} {start length : Nat}
    (h : ZerosFrom done start length) (hend : start + length = done.length) :
    ZerosFrom (done ++ [['0']]) start (length + 1) := by
  refine ⟨by simp; omega, fun i hlo hhi => ?_⟩
  by_cases hi : i < done.length
  · exact (h.append [['0']]).2 i hlo (by omega)
  · have hlast : i = done.length := by omega
    rw [hlast, List.getElem?_concat_length]

theorem ScanOk.step
    {done : List Text} {scan : RunScan} (h : ScanOk done scan) (part : Text) :
    ScanOk (done ++ [part]) (scanStep scan (part, done.length)) := by
  have hbest : 0 < scan.best.length →
      ∃ start, scan.best.start = some start ∧ ZerosFrom (done ++ [part]) start scan.best.length := by
    intro hpos
    obtain ⟨start, hstart, hzeros⟩ := h.best hpos
    exact ⟨start, hstart, hzeros.append _⟩
  by_cases hpart : part = ['0']
  · subst hpart
    -- The current run grows, or starts here.
    have hcurrent : ∃ start, scan.current.start.getD done.length = start ∧
        start + (scan.current.length + 1) = (done ++ [['0']]).length ∧
        ZerosFrom (done ++ [['0']]) start (scan.current.length + 1) := by
      rcases h.current with hnone | ⟨start, hstart, hend, hzeros⟩
      · have hempty : ZerosFrom done done.length 0 := ⟨by omega, fun i hlo hhi => by omega⟩
        rw [hnone]
        exact ⟨done.length, rfl, by simp, hempty.concat (by omega)⟩
      · exact ⟨start, by rw [hstart]; rfl, by simp; omega, hzeros.concat hend⟩
    obtain ⟨start, hstart, hend, hzeros⟩ := hcurrent
    simp only [scanStep, if_true, hstart]
    by_cases hlonger : scan.best.length < scan.current.length + 1
    · rw [if_pos hlonger]
      exact ⟨fun _ => ⟨start, rfl, hzeros⟩, Or.inr ⟨start, rfl, hend, hzeros⟩⟩
    · rw [if_neg hlonger]
      exact ⟨hbest, Or.inr ⟨start, rfl, hend, hzeros⟩⟩
  · simp only [scanStep, if_neg hpart]
    exact ⟨hbest, Or.inl rfl⟩

theorem scanOk_foldl
    (rest done : List Text) (scan : RunScan) (h : ScanOk done scan) :
    ScanOk (done ++ rest) ((rest.zipIdx done.length).foldl scanStep scan) := by
  induction rest generalizing done scan with
  | nil => simpa using h
  | cons part rest ih =>
      have hnext := ih (done ++ [part]) _ (h.step part)
      rw [List.append_assoc, List.length_append] at hnext
      exact hnext

/-- The part before `::`. -/
def leading (front : List Text) : List Text := if front = [] then [[]] else front

/-- The part after `::`. -/
def trailing (back : List Text) : List Text := if back = [] then [[]] else back

/-- The groups stay as they are, or a run of zeros is replaced. -/
theorem compressHextets_cases
    (hextets : List Text) :
    compressHextets hextets = hextets ∨
      ∃ front n back, hextets = front ++ List.replicate n ['0'] ++ back ∧ 2 ≤ n ∧
        compressHextets hextets = leading front ++ [[]] ++ trailing back := by
  have hok := scanOk_foldl hextets [] ⟨⟨none, 0⟩, ⟨none, 0⟩⟩ ⟨fun h => absurd h (by simp), Or.inl rfl⟩
  rw [List.nil_append, List.length_nil] at hok
  unfold compressHextets
  generalize hextets.zipIdx.foldl scanStep ⟨⟨none, 0⟩, ⟨none, 0⟩⟩ = scan at hok
  by_cases hlong : 1 < scan.best.length
  · obtain ⟨start, hstart, hle, hzeros⟩ := hok.best (by omega)
    right
    have hmid : (hextets.drop start).take scan.best.length =
        List.replicate scan.best.length ['0'] := by
      refine List.eq_replicate_iff.mpr ⟨by simp; omega, fun part hpart => ?_⟩
      obtain ⟨i, hi⟩ := List.mem_iff_getElem?.mp hpart
      rw [List.getElem?_take] at hi
      by_cases hlt : i < scan.best.length
      · rw [if_pos hlt, List.getElem?_drop, hzeros _ (by omega) (by omega)] at hi
        exact (Option.some.inj hi).symm
      · rw [if_neg hlt] at hi
        cases hi
    refine ⟨hextets.take start, scan.best.length, hextets.drop (start + scan.best.length), ?_,
      hlong, ?_⟩
    · rw [← hmid, ← List.drop_drop, List.append_assoc, List.take_append_drop,
        List.take_append_drop]
    · have hfront : hextets.take start = [] ↔ start = 0 := by
        rw [List.take_eq_nil_iff]
        refine or_iff_left_of_imp fun hnil => ?_
        rw [hnil, List.length_nil] at hle
        omega
      have hback : hextets.drop (start + scan.best.length) = [] ↔
          start + scan.best.length = hextets.length := by
        rw [List.drop_eq_nil_iff]
        omega
      have hpadded : (if start + scan.best.length = hextets.length then hextets ++ [[]]
          else hextets).drop (start + scan.best.length) =
            trailing (hextets.drop (start + scan.best.length)) := by
        unfold trailing
        by_cases hend : start + scan.best.length = hextets.length
        · rw [if_pos hend, if_pos (hback.mpr hend), List.drop_append_of_le_length hle,
            hback.mpr hend, List.nil_append]
        · rw [if_neg hend, if_neg (mt hback.mp hend)]
      have htake : (if start + scan.best.length = hextets.length then hextets ++ [[]]
          else hextets).take start = hextets.take start := by
        by_cases hend : start + scan.best.length = hextets.length
        · rw [if_pos hend, List.take_append_of_le_length (by omega)]
        · rw [if_neg hend]
      simp only [if_pos hlong, hstart, Option.getD_some]
      rw [hpadded, htake]
      unfold leading
      by_cases hzero : start = 0
      · rw [if_pos hzero, if_pos (hfront.mpr hzero), hfront.mpr hzero]
        rfl
      · rw [if_neg hzero, if_neg (mt hfront.mp hzero)]
  · left
    rw [if_neg hlong]

/-! ### Reading back -/

theorem filter_range_eq_singleton
    {n k : Nat} {p : Nat → Bool}
    (hk : k < n) (h : ∀ i < n, p i = true ↔ i = k) :
    (List.range n).filter p = [k] := by
  have hsame : (List.range n).filter p = (List.range n).filter (· == k) := by
    refine List.filter_congr fun i hi => ?_
    rw [Bool.eq_iff_iff, h i (List.mem_range.mp hi), beq_iff_eq]
  rw [hsame, List.filter_beq, List.count_eq_one_of_mem List.nodup_range (List.mem_range.mpr hk)]
  rfl

theorem leading_eq
    (front : List Text) :
    (front = [] ∧ leading front = [[]]) ∨ (front ≠ [] ∧ leading front = front) := by
  by_cases h : front = []
  · exact Or.inl ⟨h, if_pos h⟩
  · exact Or.inr ⟨h, if_neg h⟩

/-- The only group that `::` skips. -/
theorem skipIndices_skipped
    {front back : List Text}
    (hfront : [] ∉ front) (hback : [] ∉ back) :
    skipIndices (leading front ++ [[]] ++ trailing back) = [(leading front).length] := by
  have hleading : 0 < (leading front).length := by
    rcases leading_eq front with ⟨_, heq⟩ | ⟨hne, heq⟩
    · simp [heq]
    · rw [heq]
      exact List.length_pos_iff.mpr hne
  have htrailing : 0 < (trailing back).length := by
    rcases leading_eq back with ⟨_, heq⟩ | ⟨hne, heq⟩
    · exact (congrArg List.length heq) ▸ Nat.one_pos
    · exact (congrArg List.length heq) ▸ List.length_pos_iff.mpr hne
  refine filter_range_eq_singleton (by simp) fun i hi => ?_
  simp only [List.length_append, List.length_singleton] at hi
  rw [decide_eq_true_iff]
  constructor
  · rintro ⟨hpos, hlast, hempty⟩
    simp only [List.length_append, List.length_singleton] at hlast
    by_contra hne
    rcases Nat.lt_or_gt_of_ne hne with hlt | hgt
    · rw [List.append_assoc, List.getElem?_append_left hlt] at hempty
      rcases leading_eq front with ⟨_, heq⟩ | ⟨_, heq⟩
      · simp [heq] at hlt
        omega
      · rw [heq] at hempty
        exact hfront (List.mem_of_getElem? hempty)
    · have hright : (leading front ++ [[]]).length ≤ i := by
        simp only [List.length_append, List.length_singleton]
        omega
      rw [List.getElem?_append_right hright] at hempty
      simp only [List.length_append, List.length_singleton] at hempty
      rcases leading_eq back with ⟨_, heq⟩ | ⟨_, heq⟩
      · have hone : (trailing back).length = 1 := congrArg List.length heq
        omega
      · have htrail : trailing back = back := heq
        rw [htrail] at hempty
        exact hback (List.mem_of_getElem? hempty)
  · rintro rfl
    refine ⟨hleading, by simp; omega, ?_⟩
    rw [List.append_assoc, List.getElem?_append_right (le_refl _)]
    simp

/-- What is read from groups around a `::`. -/
theorem groupsValue_skipped
    {front back : List Text} {high low : Nat}
    (hfront : [] ∉ front) (hback : [] ∉ back) (hlength : front.length + back.length < 8)
    (hhigh : hextetsValue front = some high) (hlow : hextetsValue back = some low) :
    groupsValue (leading front ++ [[]] ++ trailing back) =
      some (high * 2 ^ (16 * (8 - front.length)) + low) := by
  have hskip := skipIndices_skipped hfront hback
  have hhead : (leading front ++ [[]] ++ trailing back).head? = some [] ↔ front = [] := by
    rcases leading_eq front with ⟨hnil, heq⟩ | ⟨hne, heq⟩
    · simp [leading, hnil]
    · rw [heq]
      obtain ⟨part, rest, rfl⟩ := List.exists_cons_of_ne_nil hne
      have hpart : part ≠ [] := fun h => hfront (by simp [h])
      simp [hpart]
  have hlast : (leading front ++ [[]] ++ trailing back).getLast? = some [] ↔ back = [] := by
    rcases List.eq_nil_or_concat back with rfl | ⟨rest, part, rfl⟩
    · simp [trailing]
    · rw [List.concat_eq_append] at hback ⊢
      have hpart : part ≠ [] := fun h => hback (by simp [h])
      have htrail : trailing (rest ++ [part]) = rest ++ [part] := if_neg (by simp)
      rw [htrail, ← List.append_assoc, List.getLast?_concat]
      simp [hpart]
  have hhi : (if front = [] then 0 else (leading front).length) = front.length := by
    rcases leading_eq front with ⟨hnil, _⟩ | ⟨hne, heq⟩
    · rw [if_pos hnil, hnil]
      rfl
    · rw [if_neg hne, heq]
  have hlo : (if back = [] then 0 else
      (leading front ++ [[]] ++ trailing back).length - (leading front).length - 1) =
        back.length := by
    rcases leading_eq back with ⟨hnil, _⟩ | ⟨hne, heq⟩
    · rw [if_pos hnil, hnil]
      rfl
    · have htrail : trailing back = back := heq
      rw [if_neg hne, htrail]
      simp
  have htake : (leading front ++ [[]] ++ trailing back).take front.length = front := by
    rcases leading_eq front with ⟨hnil, _⟩ | ⟨_, heq⟩
    · simp [hnil]
    · rw [heq, List.append_assoc, List.take_left]
  have hdrop : (leading front ++ [[]] ++ trailing back).drop
      ((leading front ++ [[]] ++ trailing back).length - back.length) = back := by
    rcases leading_eq back with ⟨hnil, _⟩ | ⟨_, heq⟩
    · simp [hnil]
    · have htrail : trailing back = back := heq
      rw [htrail, List.length_append, Nat.add_sub_cancel, List.drop_left]
  have hone : front = [] → (leading front).length = 1 := fun h => by simp [leading, h]
  have hend : back = [] → (leading front ++ [[]] ++ trailing back).length -
      (leading front).length - 1 = 1 := by
    intro h
    simp [trailing, h]
  unfold groupsValue
  simp only [hskip, hhead, hlast, hhi, hlo, htake, hdrop, hhigh, hlow]
  rw [if_neg (fun h => h.2 (hone h.1)), if_neg (fun h => h.2 (hend h.1)), if_neg (by omega)]
  rfl

/-- What is read from eight groups. -/
theorem groupsValue_full
    {parts : List Text} {value : Nat}
    (hlength : parts.length = 8) (hne : [] ∉ parts) (hvalue : hextetsValue parts = some value) :
    groupsValue parts = some value := by
  have hskip := skipIndices_of_not_mem hne
  have hhead : parts.head? ≠ some [] := fun h => hne (List.mem_of_head? h)
  have hlast : parts.getLast? ≠ some [] := fun h => hne (List.mem_of_getLast? h)
  simp [groupsValue, hskip, hlength, hhead, hlast, hvalue]

/-- `_string_from_ip_int`. -/
def ipv6Plain (ip : Nat) : Text :=
  join ':' (compressHextets ((groups 8 ip).map hextet))

/-- The groups that are written denote the address. -/
theorem groupsValue_compressHextets
    {ip : Nat}
    (hip : ip < 2 ^ 128) :
    groupsValue (compressHextets ((groups 8 ip).map hextet)) = some ip := by
  have hall : foldGroups 0 (groups 8 ip) = ip := by
    rw [foldGroups_groups, Nat.zero_mul, Nat.zero_add, Nat.mod_eq_of_lt (by norm_num; omega)]
  have hlt : ∀ g ∈ groups 8 ip, g < 65536 := fun g hg => lt_of_mem_groups hg
  have hnonempty : ∀ gs : List Nat, [] ∉ gs.map hextet := by
    intro gs hmem
    obtain ⟨g, _, hg⟩ := List.mem_map.mp hmem
    exact hextet_ne_nil g hg
  rcases compressHextets_cases ((groups 8 ip).map hextet) with
    heq | ⟨front, n, back, hsplit, hn, heq⟩
  · rw [heq]
    exact groupsValue_full (by rw [List.length_map, length_groups]) (hnonempty _)
      ((hextetsValue_map hlt).trans (congrArg some hall))
  · -- The groups are split where their texts are.
    obtain ⟨gs, bs, hgroups, hfrontMid, rfl⟩ := List.map_eq_append_iff.mp hsplit
    obtain ⟨fs, zs, rfl, rfl, hzeros⟩ := List.map_eq_append_iff.mp hfrontMid
    have hzs : zs = List.replicate n 0 := by
      refine List.eq_replicate_iff.mpr ⟨?_, fun g hg => ?_⟩
      · have hlength := congrArg List.length hzeros
        rwa [List.length_map, List.length_replicate] at hlength
      · refine hextet_eq_zero (List.eq_of_mem_replicate (n := n) ?_)
        rw [← hzeros]
        exact List.mem_map.mpr ⟨g, hg, rfl⟩
    subst hzs
    rw [hgroups] at hlt hall
    have hcount := length_groups 8 ip
    rw [hgroups] at hcount
    simp only [List.length_append, List.length_replicate] at hcount
    have hhigh := hextetsValue_map fun g (hg : g ∈ fs) => hlt g (by simp [hg])
    have hlow := hextetsValue_map fun g (hg : g ∈ bs) => hlt g (by simp [hg])
    rw [heq, groupsValue_skipped (hnonempty fs) (hnonempty bs) (by simp; omega) hhigh hlow]
    have hvalue : foldGroups 0 (fs ++ List.replicate n 0 ++ bs) =
        foldGroups 0 fs * 65536 ^ (n + bs.length) + foldGroups 0 bs := by
      have hsteps : foldGroups 0 (fs ++ List.replicate n 0 ++ bs) =
          foldGroups (foldGroups (foldGroups 0 fs) (List.replicate n 0)) bs := by
        simp only [foldGroups, List.foldl_append]
      rw [hsteps, foldGroups_zeros, foldGroups_eq, pow_add, mul_assoc]
    have hpow : (2 : Nat) ^ (16 * (8 - (fs.map hextet).length)) = 65536 ^ (n + bs.length) := by
      rw [List.length_map, show 8 - fs.length = n + bs.length by omega, pow_mul]
      norm_num
    rw [hpow, ← hvalue, hall]

theorem isAlnum_of_mem_compressHextets
    {gs : List Nat} {part : Text} {c : Char}
    (hpart : part ∈ compressHextets (gs.map hextet)) (hc : c ∈ part) :
    isAlnum c = true := by
  have hmap : ∀ part ∈ gs.map hextet, ∀ c ∈ part, isAlnum c = true := by
    intro part hpart c hc
    obtain ⟨g, _, rfl⟩ := List.mem_map.mp hpart
    exact isAlnum_of_mem_hextet hc
  have hmem : part ∈ gs.map hextet := by
    rcases compressHextets_cases (gs.map hextet) with heq | ⟨front, n, back, hsplit, _, heq⟩
    · rwa [heq] at hpart
    · have hsub : ∀ l : List Text, part ∈ leading l → part ∈ l := by
        intro l hl
        rcases leading_eq l with ⟨_, hnil⟩ | ⟨_, hsame⟩
        · rw [hnil, List.mem_singleton] at hl
          rw [hl] at hc
          cases hc
        · rwa [hsame] at hl
      rw [heq, List.mem_append, List.mem_append, List.mem_singleton] at hpart
      rw [hsplit, List.mem_append, List.mem_append]
      rcases hpart with (hpart | rfl) | hpart
      · exact Or.inl (Or.inl (hsub front hpart))
      · cases hc
      · exact Or.inr (hsub back hpart)
  exact hmap part hmem c hc

/-- The characters of an address that is written without a dotted quad. -/
theorem mem_ipv6Plain
    {ip : Nat} {c : Char}
    (h : c ∈ ipv6Plain ip) :
    c = ':' ∨ isAlnum c = true := by
  rcases mem_join h with hc | ⟨part, hpart, hc⟩
  · exact Or.inl hc
  · exact Or.inr (isAlnum_of_mem_compressHextets hpart hc)

theorem isAlnum_not_mem
    {c d : Char}
    (hc : isAlnum c = true) (hd : d ∈ ['.', '/', '%']) :
    c ≠ d := by
  rintro rfl
  have hnot := (plain_of_isAlnum hc).2.2
  simp only [List.mem_cons, List.not_mem_nil, or_false] at hd
  rcases hd with rfl | rfl | rfl <;> simp at hnot

theorem not_mem_ipv6Plain
    (ip : Nat) {d : Char}
    (hd : d ∈ ['.', '/', '%']) :
    d ∉ ipv6Plain ip := by
  intro hmem
  rcases mem_ipv6Plain hmem with rfl | halnum
  · revert hd
    decide
  · exact isAlnum_not_mem halnum hd rfl

/-- How many parts are written. -/
theorem length_compressHextets
    (ip : Nat) :
    3 ≤ (compressHextets ((groups 8 ip).map hextet)).length ∧
      (compressHextets ((groups 8 ip).map hextet)).length ≤ 9 := by
  have hlength : ((groups 8 ip).map hextet).length = 8 := by
    rw [List.length_map, length_groups]
  rcases compressHextets_cases ((groups 8 ip).map hextet) with heq | ⟨front, n, back, hsplit, hn, heq⟩
  · rw [heq, hlength]
    decide
  · rw [hsplit] at hlength
    simp only [List.length_append, List.length_replicate] at hlength
    have hpart : ∀ l : List Text, 1 ≤ (leading l).length ∧ (leading l).length ≤ l.length + 1 := by
      intro l
      rcases leading_eq l with ⟨hnil, hl⟩ | ⟨hne, hl⟩
      · simp [hl]
      · have hpos := List.length_pos_iff.mpr hne
        rw [hl]
        omega
    have hfront := hpart front
    have hback : 1 ≤ (trailing back).length ∧ (trailing back).length ≤ back.length + 1 := hpart back
    rw [heq]
    simp only [List.length_append, List.length_singleton]
    omega

/-- An address that is written without a dotted quad is read back. -/
theorem ipv6Packed_ipv6Plain
    {ip : Nat}
    (hip : ip < 2 ^ 128) :
    ipv6Packed (ipv6Plain ip) = some (toBytes 16 ip) := by
  have hlengths := length_compressHextets ip
  have hsplit : splitOn ':' (ipv6Plain ip) = compressHextets ((groups 8 ip).map hextet) := by
    refine splitOn_join (fun hnil => ?_) fun part hpart hmem => ?_
    · rw [hnil] at hlengths
      exact absurd hlengths.1 (by decide)
    · have hnot := (plain_of_isAlnum (isAlnum_of_mem_compressHextets hpart hmem)).2.2
      simp at hnot
  have hzone : splitScopeId (ipv6Plain ip) = some (ipv6Plain ip) := by
    rw [splitScopeId, splitOnce_of_not_mem (not_mem_ipv6Plain ip (by simp))]
  have hexpand := expandIpv4Suffix_of_not_mem (not_mem_ipv6Plain ip (d := '.') (by simp))
  have hvalue : ipv6Value (ipv6Plain ip) = some ip := by
    refine (ipv6Value_eq_some_iff _ _).mpr ⟨by rw [hsplit]; exact hlengths.1, _, hexpand, ?_, ?_⟩
    · rw [hsplit]
      exact hlengths.2
    · rw [hsplit]
      exact groupsValue_compressHextets hip
  exact (ipv6Packed_eq_some_iff _ _).mpr
    ⟨not_mem_ipv6Plain ip (by simp), _, _, hzone, hvalue, rfl⟩

/-! ### Addresses as they are written -/

/-- `str(IPv4Address(data))`. -/
def ipv4Text (data : Bytes) : Text := join '.' (data.map fun b => Nat.toDigits 10 b.toNat)

/-- The highest 96 bits are those of an IPv4-mapped address. -/
def IsMapped (ip : Nat) : Prop := ip / 2 ^ 32 = 0xFFFF

instance (ip : Nat) : Decidable (IsMapped ip) :=
  inferInstanceAs (Decidable (ip / 2 ^ 32 = 0xFFFF))

/-- `str(IPv6Address(ip))`. -/
def ipv6Text (dotted : Bool) (ip : Nat) : Text :=
  if dotted = true ∧ IsMapped ip then
    ipv6Plain (ip / 2 ^ 32) ++ ':' :: ipv4Text (toBytes 4 (ip % 2 ^ 32))
  else ipv6Plain ip

example : (ipv6Text true 0xFFFF0A000001, ipv6Text false 0xFFFF0A000001, ipv6Text true 1) =
    ("::ffff:10.0.0.1".toList, "::ffff:a00:1".toList, "::1".toList) := by decide +kernel

theorem ipv4Octet_toDigits
    (b : UInt8) :
    ipv4Octet (Nat.toDigits 10 b.toNat) = some b := by
  have hall : ∀ n < 256, ipv4Octet (Nat.toDigits 10 n) = some (UInt8.ofNat n) := by
    decide +kernel
  rw [hall b.toNat b.toNat_lt, UInt8.ofNat_toNat]

/-- Four bytes are read back. -/
theorem ipv4Packed_ipv4Text
    {data : Bytes}
    (h : data.length = 4) :
    ipv4Packed (ipv4Text data) = some data := by
  have hsplit : splitOn '.' (ipv4Text data) = data.map fun b => Nat.toDigits 10 b.toNat := by
    refine splitOn_join (fun hnil => ?_) fun part hpart hmem => ?_
    · rw [List.map_eq_nil_iff] at hnil
      rw [hnil] at h
      cases h
    · obtain ⟨b, _, rfl⟩ := List.mem_map.mp hpart
      have hdigit := Nat.isDigit_of_mem_toDigits (by decide) (by decide) hmem
      revert hdigit
      decide
  match data, h with
  | [a, b, c, d], _ =>
      rw [ipv4Packed, hsplit]
      simp [ipv4Octet_toDigits]

/-- The dotted form has three dots. -/
theorem count_ipv6Text_mapped
    {ip : Nat}
    (h : IsMapped ip) :
    (ipv6Text true ip).count '.' = 3 := by
  have hplain : (ipv6Plain (ip / 2 ^ 32)).count '.' = 0 :=
    List.count_eq_zero.mpr (not_mem_ipv6Plain _ (by simp))
  have hquad := (ipv4Packed_chars (ipv4Packed_ipv4Text
    (toBytes_length 4 (ip % 2 ^ 32)))).1
  have hcolon : ':' ≠ '.' := by decide
  rw [ipv6Text, if_pos ⟨rfl, h⟩, List.count_append, hplain, List.count_cons_of_ne hcolon, hquad]

end TextLiterals
end P4Net
