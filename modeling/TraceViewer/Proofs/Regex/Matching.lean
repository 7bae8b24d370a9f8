import TraceViewer.Regex.Engine

/-!
# Where matches stand

A program ends at its first instruction, which only the instruction that saves the end of the match
leads to, and it starts by saving where the match begins.  So each way through it that takes part in
a search has its beginning behind it, a match ends no earlier than it begins, and the matches of a
text follow one another.
-/

namespace TraceViewer.Regex

open TraceViewer.Text

/-! ## 1. Programs -/

/-- The instructions that an instruction may lead to. -/
def Instruction.successors : Instruction → List Nat
  | .oneOf _ next | .look _ next | .save _ next => [next]
  | .fork preferred other => [preferred, other]
  | .fail | .accept => []

/-- A program that ends at its first instruction and nowhere else; what leads there has saved the
end of the match. -/
structure EndsFirst (p : Program) : Prop where
  ends : p[0]? = some .accept
  nowhere_else : ∀ pc : Nat, p[pc]? = some .accept → pc = 0
  saved : ∀ (pc : Nat) (i : Instruction), p[pc]? = some i → 0 ∈ i.successors → i = .save 1 0

/-- An instruction that may stand behind the first one. -/
structure Instruction.Inner (i : Instruction) : Prop where
  goes_on : i ≠ .accept
  saved : 0 ∈ i.successors → i = .save 1 0

/-- Adds instructions to a program that do not end it, and starts at one of them or goes on as it
would without them. -/
def Adds (f : Nat → Program → Nat × Program) : Prop :=
  ∀ next p, next ≠ 0 → EndsFirst p → (f next p).1 ≠ 0 ∧ EndsFirst (f next p).2

namespace Instruction.Inner

variable {next other : Nat}

theorem oneOf (set : CharClass) (h : next ≠ 0) : Inner (.oneOf set next) :=
  ⟨by simp, by simp [successors, h.symm]⟩

theorem look (condition : Look) (h : next ≠ 0) : Inner (.look condition next) :=
  ⟨by simp, by simp [successors, h.symm]⟩

theorem save (slot : Nat) (h : next ≠ 0) : Inner (.save slot next) :=
  ⟨by simp, by simp [successors, h.symm]⟩

/-- The one instruction that leads to the end of a program. -/
theorem saveEnd : Inner (.save 1 0) := ⟨by simp, fun _ => rfl⟩

theorem fork (h : next ≠ 0) (ho : other ≠ 0) : Inner (.fork next other) :=
  ⟨by simp, by simp [successors, h.symm, ho.symm]⟩

theorem forkTo (greedy : Bool) (h : next ≠ 0) (ho : other ≠ 0) :
    Inner (forkTo greedy next other) := by
  cases greedy
  · exact fork ho h
  · exact fork h ho

theorem fail : Inner .fail := ⟨by simp, by simp [successors]⟩

end Instruction.Inner

namespace EndsFirst

variable {p : Program} {i : Instruction}

theorem size_ne_zero (hp : EndsFirst p) : p.size ≠ 0 := by
  intro h
  have hends := hp.ends
  rw [Array.getElem?_eq_none (by omega)] at hends
  cases hends

/-- The program that `compile` starts from. -/
theorem single : EndsFirst #[.accept] where
  ends := rfl
  nowhere_else pc h := by
    rw [List.getElem?_toArray] at h
    cases pc with
    | zero => rfl
    | succ pc => simp at h
  saved pc i h := by
    rw [List.getElem?_toArray] at h
    cases pc with
    | zero => cases h; simp [Instruction.successors]
    | succ pc => simp at h

theorem emit (hp : EndsFirst p) (hi : i.Inner) : (p.emit i).1 ≠ 0 ∧ EndsFirst (p.emit i).2 := by
  refine ⟨hp.size_ne_zero, ?_, ?_, ?_⟩
  · exact (Array.getElem?_push_lt (by have := hp.size_ne_zero; omega)).trans
      ((Array.getElem?_eq_getElem _).symm.trans hp.ends)
  · intro pc h
    change (p.push i)[pc]? = _ at h
    rw [Array.getElem?_push] at h
    split at h
    · cases h; exact absurd rfl hi.goes_on
    · exact hp.nowhere_else pc h
  · intro pc j h
    change (p.push i)[pc]? = _ at h
    rw [Array.getElem?_push] at h
    split at h
    · cases h; exact hi.saved
    · exact hp.saved pc j h

/-- An instruction behind the first one can be replaced by another. -/
theorem replace (hp : EndsFirst p) (hi : i.Inner) {n : Nat} (hn : n ≠ 0) :
    EndsFirst (p.setIfInBounds n i) where
  ends := by rw [Array.getElem?_setIfInBounds_ne hn]; exact hp.ends
  nowhere_else pc h := by
    rw [Array.getElem?_setIfInBounds] at h
    split at h
    · split at h
      · cases h; exact absurd rfl hi.goes_on
      · cases h
    · exact hp.nowhere_else pc h
  saved pc j h := by
    rw [Array.getElem?_setIfInBounds] at h
    split at h
    · split at h
      · cases h; exact hi.saved
      · cases h
    · exact hp.saved pc j h

end EndsFirst

namespace Adds

variable {body : Nat → Program → Nat × Program}

theorem times (h : Adds body) (count : Nat) : Adds (emitTimes body count) := by
  induction count with
  | zero => exact fun next p hnext hp => ⟨hnext, hp⟩
  | succ count ih =>
    intro next p hnext hp
    obtain ⟨hstart, hp'⟩ := h next p hnext hp
    exact ih _ _ hstart hp'

theorem optional (h : Adds body) (greedy : Bool) {next : Nat} (hnext : next ≠ 0) (count : Nat) :
    Adds (emitOptional body greedy next count) := by
  induction count with
  | zero => exact fun inner p hinner hp => ⟨hinner, hp⟩
  | succ count ih =>
    intro inner p hinner hp
    obtain ⟨hstart, hp'⟩ := h inner p hinner hp
    obtain ⟨hfork, hp''⟩ := hp'.emit (.forkTo greedy hstart hnext)
    exact ih _ _ hfork hp''

theorem loop (h : Adds body) (greedy : Bool) {next : Nat} (hnext : next ≠ 0) {p : Program}
    (hp : EndsFirst p) :
    (emitLoop body greedy next p).1 ≠ 0 ∧ (emitLoop body greedy next p).2.1 ≠ 0 ∧
      EndsFirst (emitLoop body greedy next p).2.2 := by
  obtain ⟨hloop, hp'⟩ := hp.emit .fail
  obtain ⟨hstart, hp''⟩ := h _ _ hloop hp'
  exact ⟨hstart, hloop, hp''.replace (.forkTo greedy hstart hnext) hloop⟩

theorem star (h : Adds body) (simple greedy : Bool) : Adds (emitStar body simple greedy) := by
  intro next p hnext hp
  obtain ⟨hstart, hloop, hp'⟩ := h.loop greedy hnext hp
  unfold emitStar
  cases simple with
  | true => exact ⟨hloop, hp'⟩
  | false => exact hp'.emit (.forkTo greedy hstart hnext)

end Adds

mutual

theorem Pattern.adds_emit : ∀ pattern : Pattern, Adds pattern.emit
  | .empty => fun next p hnext hp => ⟨hnext, hp⟩
  | .oneOf set => fun next p hnext hp => hp.emit (.oneOf set hnext)
  | .look condition => fun next p hnext hp => hp.emit (.look condition hnext)
  | .capture group body => fun next p hnext hp => by
    obtain ⟨hstop, hp'⟩ := hp.emit (.save (2 * group + 1) hnext)
    obtain ⟨hstart, hp''⟩ := body.adds_emit _ _ hstop hp'
    exact hp''.emit (.save (2 * group) hstart)
  | .sequence items => adds_emitSequence items
  | .choice items => adds_emitChoice items
  | .repeated body least most greedy => fun next p hnext hp => by
    have hbody := body.adds_emit
    unfold Pattern.emit
    split
    · exact hbody.star _ greedy next p hnext hp
    · obtain ⟨hstart, -, hp'⟩ := hbody.loop greedy hnext hp
      exact hbody.times _ _ _ hstart hp'
    · obtain ⟨hstart, hp'⟩ := hbody.optional greedy hnext _ next p hnext hp
      exact hbody.times _ _ _ hstart hp'

theorem adds_emitSequence : ∀ items : List Pattern, Adds (emitSequence items)
  | [] => fun next p hnext hp => ⟨hnext, hp⟩
  | item :: rest => fun next p hnext hp => by
    obtain ⟨hstart, hp'⟩ := adds_emitSequence rest next p hnext hp
    exact item.adds_emit _ _ hstart hp'

theorem adds_emitChoice : ∀ items : List Pattern, Adds (emitChoice items)
  | [] => fun _ _ _ hp => hp.emit .fail
  | item :: rest => fun next p hnext hp => by
    obtain ⟨hother, hp'⟩ := adds_emitChoice rest next p hnext hp
    obtain ⟨hstart, hp''⟩ := item.adds_emit next _ hnext hp'
    exact hp''.emit (.fork hstart hother)

end

/-- A program with a start that saves where a match begins. -/
structure Compiled.Framed (c : Compiled) : Prop extends EndsFirst c.program where
  begins : ∃ next, c.program[c.start]? = some (.save 0 next)

theorem framed_compile (r : Regex) : (compile r).Framed := by
  -- the end of the match is saved in front of the first instruction, so `Adds` does not say this
  obtain ⟨hstop, hp⟩ := EndsFirst.single.emit .saveEnd
  obtain ⟨hstart, hp'⟩ := r.pattern.adds_emit _ _ hstop hp
  exact { (hp'.emit (.save 0 hstart)).2 with
          begins := ⟨_, Array.getElem?_push_size⟩ }

theorem Compiled.Framed.ne_start {c : Compiled} (hc : c.Framed) {pc : Nat} {i : Instruction}
    (hi : c.program[pc]? = some i) (hsave : ∀ next, i ≠ .save 0 next) : pc ≠ c.start := by
  intro hpc
  obtain ⟨next, hbegins⟩ := hc.begins
  rw [hpc, hbegins] at hi
  cases hi
  exact hsave next rfl

/-! ## 2. Ways through a program -/

/-- The slots after an instruction at a position of the text. -/
def Instruction.store (position : Nat) (slots : Slots) : Instruction → Slots
  | .save slot _ => slots.setIfInBounds slot (some position)
  | _ => slots

/-- What a way has saved when it comes to the instruction `pc` at a position of the text, in a
search from `start`: where the match begins, but in front of the instruction that saves it, and at
the end of the program also where the match ends. -/
structure Underway (c : Compiled) (start position pc : Nat) (slots : Slots) : Prop where
  room : 2 ≤ slots.size
  begun : pc ≠ c.start → ∃ a, slots[0]? = some (some a) ∧ start ≤ a ∧ a ≤ position
  ended : pc = 0 → slots[1]? = some (some position)

/-- Slots that tell where a match stands. -/
def Bounds (start stop : Nat) (slots : Slots) : Prop :=
  ∃ a b, slots[0]? = some (some a) ∧ slots[1]? = some (some b) ∧ start ≤ a ∧ a ≤ b ∧ b ≤ stop

/-- The ways of a front have all saved what they must. -/
def Front.Sound (c : Compiled) (start position : Nat) (front : Front) : Prop :=
  ∀ way ∈ front.ways, Underway c start position way.place way.slots

section Ways

variable {c : Compiled} {start stop position pc next : Nat} {slots : Slots} {i : Instruction}
  {before after : Option Char} {front : Front} {found : Option Slots}

theorem Instruction.size_store : (i.store position slots).size = slots.size := by
  cases i with
  | save slot next => exact Array.size_setIfInBounds
  | _ => rfl

/-- No instruction clears the first slot. -/
theorem Instruction.store_zero (i : Instruction) (position : Nat) (h : 2 ≤ slots.size) :
    (i.store position slots)[0]? = slots[0]? ∨
      (i.store position slots)[0]? = some (some position) := by
  cases i with
  | save slot next =>
    rw [store]
    by_cases hslot : slot = 0
    · subst hslot
      exact .inr (Array.getElem?_setIfInBounds_self_of_lt (by omega))
    · exact .inl (Array.getElem?_setIfInBounds_ne hslot)
  | _ => exact .inl rfl

namespace Underway

/-- A search starts with nothing saved. -/
theorem initial (hc : c.Framed) {count : Nat} (hcount : 2 ≤ count) :
    Underway c start position c.start (Array.replicate count none) where
  room := by rw [Array.size_replicate]; exact hcount
  begun h := absurd rfl h
  ended h := by
    obtain ⟨next, hbegins⟩ := hc.begins
    rw [h, hc.ends] at hbegins
    cases hbegins

/-- What holds in front of an instruction holds in front of those it leads to. -/
theorem follow (hc : c.Framed) (hu : Underway c start position pc slots) (hle : start ≤ position)
    (hi : c.program[pc]? = some i) (hnext : next ∈ i.successors) :
    Underway c start position next (i.store position slots) where
  room := by rw [Instruction.size_store]; exact hu.room
  begun _ := by
    by_cases hpc : pc = c.start
    · obtain ⟨next, hbegins⟩ := hc.begins
      rw [hpc, hbegins] at hi
      cases hi
      have hroom := hu.room
      exact ⟨position, Array.getElem?_setIfInBounds_self_of_lt (by omega), hle, Nat.le_refl _⟩
    · obtain ⟨a, ha, hbounds⟩ := hu.begun hpc
      obtain hkept | hset := i.store_zero position hu.room
      · exact ⟨a, hkept.trans ha, hbounds⟩
      · exact ⟨position, hset, hle, Nat.le_refl _⟩
  ended hzero := by
    cases hc.saved pc i hi (hzero ▸ hnext)
    have hroom := hu.room
    exact Array.getElem?_setIfInBounds_self_of_lt (by omega)

/-- A way that takes a character is still under way behind it. -/
theorem take (hc : c.Framed) (hu : Underway c start position pc slots) {set : CharClass}
    (hi : c.program[pc]? = some (.oneOf set next)) :
    Underway c start (position + 1) next slots where
  room := hu.room
  begun _ := by
    obtain ⟨a, ha, hstart, hposition⟩ := hu.begun (hc.ne_start hi (by simp))
    exact ⟨a, ha, hstart, by omega⟩
  ended hzero := by
    have hsave := hc.saved pc _ hi (by simp [Instruction.successors, hzero])
    cases hsave

theorem bounds (hc : c.Framed) (hu : Underway c start position pc slots)
    (hi : c.program[pc]? = some .accept) (hle : position ≤ stop) : Bounds start stop slots := by
  obtain ⟨a, ha, hstart, hposition⟩ := hu.begun (hc.ne_start hi (by simp))
  exact ⟨a, position, ha, hu.ended (hc.nowhere_else pc hi), hstart, hposition, hle⟩

end Underway

theorem follow_sound (hc : c.Framed) (hle : start ≤ position) :
    ∀ (bound : Nat) {pc : Nat} {slots : Slots} {front : Front},
      Underway c start position pc slots → front.Sound c start position →
      (follow c.program position before after bound pc slots front).Sound c start position := by
  intro bound
  induction bound with
  | zero => exact fun _ hfront => hfront
  | succ bound ih =>
    intro pc slots front hu hfront
    unfold follow
    split
    · exact hfront
    · dsimp only
      split
      · next hi =>
        split
        · exact ih (hu.follow hc hle hi (by simp [Instruction.successors])) hfront
        · exact hfront
      · next hi => exact ih (hu.follow hc hle hi (by simp [Instruction.successors])) hfront
      · next preferred other hi =>
        have hpreferred : preferred ∈ (Instruction.fork preferred other).successors := by
          simp [Instruction.successors]
        have hother : other ∈ (Instruction.fork preferred other).successors := by
          simp [Instruction.successors]
        exact ih (hu.follow hc hle hi hother) (ih (hu.follow hc hle hi hpreferred) hfront)
      · exact hfront
      · intro way hway
        obtain rfl | hway := List.mem_cons.1 hway
        · exact hu
        · exact hfront way hway
      · exact hfront

theorem advance_sound (hc : c.Framed) (hle : start ≤ position) (hstop : position ≤ stop)
    (char after : Option Char) :
    ∀ {ways : List Way} {front : Front} {found : Option Slots},
      (∀ way ∈ ways, Underway c start position way.place way.slots) →
      front.Sound c start (position + 1) → (∀ slots ∈ found, Bounds start stop slots) →
      (advance c.program position char after ways front found).1.Sound c start (position + 1) ∧
        ∀ slots ∈ (advance c.program position char after ways front found).2,
          Bounds start stop slots := by
  intro ways
  induction ways with
  | nil => exact fun _ hfront hfound => ⟨hfront, hfound⟩
  | cons way rest ih =>
    intro front found hways hfront hfound
    obtain ⟨hway, hrest⟩ := List.forall_mem_cons.1 hways
    unfold advance
    split
    · next hi =>
      refine ⟨hfront, fun slots hslots => ?_⟩
      cases hslots
      exact hway.bounds hc hi hstop
    · next hi =>
      split
      · exact ih hrest (follow_sound hc (by omega) _ (hway.take hc hi) hfront) hfound
      · exact ih hrest hfront hfound
    · exact ih hrest hfront hfound

/-- Until a match is found each position starts a way of its own. -/
theorem sound_begin (hc : c.Framed) (hle : start ≤ position) {count : Nat} (hcount : 2 ≤ count)
    (bound : Nat) (before after : Option Char) (found : Option Slots)
    (hfront : front.Sound c start position) :
    Front.Sound c start position
      (if found.isSome then front
        else follow c.program position before after bound c.start
          (Array.replicate count none) front) := by
  split
  · exact hfront
  · exact follow_sound hc hle bound (.initial hc hcount) hfront

theorem sound_fresh (reached : Array Bool) : Front.Sound c start position ⟨reached, []⟩ :=
  fun _ hway => absurd hway List.not_mem_nil

/-- A search finds a match that begins where it started or later, and ends within the text. -/
theorem runFrom_bounds (hc : c.Framed) {count : Nat} (hcount : 2 ≤ count) :
    ∀ (text : List Char) {position : Nat} {before : Option Char} {front : Front}
      {found : Option Slots}, start ≤ position → position + text.length ≤ stop →
      front.Sound c start position → (∀ slots ∈ found, Bounds start stop slots) →
      ∀ slots ∈ runFrom c count position before text front found, Bounds start stop slots := by
  intro text
  induction text with
  | nil =>
    intro position before front found hle hstop hfront hfound
    have hways := sound_begin hc hle hcount (c.program.size + 1) before none found hfront
    unfold runFrom
    dsimp only [List.head?_nil]
    generalize (if found.isSome then front else _) = begun at hways ⊢
    split
    · exact hfound
    · exact (advance_sound hc hle hstop none none
        (fun way hway => hways way (List.mem_reverse.1 hway)) (sound_fresh _) hfound).2
  | cons char rest ih =>
    intro position before front found hle hstop hfront hfound
    rw [List.length_cons] at hstop
    have hways := sound_begin hc hle hcount (c.program.size + 1) before (some char) found hfront
    unfold runFrom
    dsimp only [List.head?_cons]
    generalize (if found.isSome then front else _) = begun at hways ⊢
    split
    · exact hfound
    · obtain ⟨hfront', hfound'⟩ := advance_sound hc hle (by omega) (some char) rest.head?
        (fun way hway => hways way (List.mem_reverse.1 hway)) (sound_fresh _) hfound
      exact ih (by omega) (by omega) hfront' hfound'

end Ways

/-! ## 3. Matches -/

/-- Whether a match that is told in characters stands between two positions of a text. -/
structure Match.Within (start stop : Nat) (m : Match) : Prop where
  from_start : start ≤ m.whole.1
  in_order : m.whole.1 ≤ m.whole.2
  to_stop : m.whole.2 ≤ stop

theorem Bounds.within {start stop : Nat} {slots : Slots} (h : Bounds start stop slots) {m : Match}
    (hm : Match.ofSlots? slots = some m) : m.Within start stop := by
  obtain ⟨a, b, ha, hb, hstart, hab, hstop⟩ := h
  rw [← Array.getElem?_toList] at ha hb
  unfold Match.ofSlots? at hm
  match hslots : slots.toList with
  | [] => rw [hslots] at ha; cases ha
  | [_] => rw [hslots] at hb; cases hb
  | _ :: _ :: rest =>
    rw [hslots] at ha hb hm
    cases ha
    cases hb
    cases hm
    exact ⟨hstart, hab, hstop⟩

/-- Told in bytes, a match within a text lies on boundaries of its characters. -/
theorem Match.Within.follows {text : List Char} {start : Nat} {m : Match}
    (h : m.Within start text.length) : (m.inBytes text).Follows text (byteOffset text start) where
  behind := byteOffset_mono text h.from_start
  in_order := byteOffset_mono text h.in_order
  begins := ⟨m.whole.1, Nat.le_trans h.in_order h.to_stop, rfl⟩
  ends := ⟨m.whole.2, h.to_stop, rfl⟩

namespace Prepared

variable {r : Regex} {text : List Char} {start : Nat}

theorem searchFrom_within {m : Match} (h : (ofRegex r).searchFrom text start = some m) :
    m.Within start text.length := by
  unfold searchFrom at h
  split at h
  · cases h
  · obtain ⟨slots, hslots, hm⟩ := Option.bind_eq_some_iff.1 h
    have hlength : start + (text.drop start).length ≤ text.length := by
      rw [List.length_drop]
      omega
    exact (runFrom_bounds (framed_compile r) (by unfold Regex.groupCount; omega) _ (Nat.le_refl _)
      hlength (sound_fresh _) (by simp) slots hslots).within hm

/-- An empty match that is passed over makes the next search start further on only. -/
theorem inOrder_matchesFrom (r : Regex) (text : List Char) :
    ∀ (bound start : Nat) (last : Option Nat), InOrder text (byteOffset text start)
      (((ofRegex r).matchesFrom text bound start last).map (Match.inBytes text)) := by
  intro bound
  induction bound with
  | zero => exact fun _ _ => trivial
  | succ bound ih =>
    intro start last
    unfold matchesFrom
    split
    · trivial
    · next m hm =>
      dsimp only
      split
      · split
        · trivial
        · next m' hm' =>
          have hwithin := searchFrom_within hm'
          have hstart := hwithin.from_start
          have hwithin' : m'.Within start text.length :=
            ⟨by omega, hwithin.in_order, hwithin.to_stop⟩
          exact ⟨hwithin'.follows, ih _ _⟩
      · exact ⟨(searchFrom_within hm).follows, ih _ _⟩

/-- The matches of a text follow one another, with no character in two of them. -/
theorem inOrder_searchAll (r : Regex) (text : List Char) :
    InOrder text 0 ((ofRegex r).searcher.searchAll text) :=
  inOrder_matchesFrom r text _ 0 none

/-- A text has no more matches than it has positions where a search may go on. -/
theorem length_searchAll_le (p : Prepared) (text : List Char) :
    (p.searcher.searchAll text).length ≤ text.length + 2 := by
  have hbound : ∀ (bound start : Nat) (last : Option Nat),
      (p.matchesFrom text bound start last).length ≤ bound := by
    intro bound
    induction bound with
    | zero => exact fun _ _ => Nat.le_refl 0
    | succ bound ih =>
      intro start last
      unfold matchesFrom
      split
      · exact Nat.zero_le _
      · dsimp only
        split
        · split
          · exact Nat.zero_le _
          · exact Nat.succ_le_succ (ih _ _)
        · exact Nat.succ_le_succ (ih _ _)
  have hmap : (p.searcher.searchAll text).length = (p.matches text).length := List.length_map _
  rw [hmap]
  exact hbound _ 0 none

end Prepared

end TraceViewer.Regex
