import TraceViewer.Proofs.Snippet.Yielding

/-!
# Parsing undoes printing

Every production reads the tokens of the expressions that it is there for.  The induction is on the
levels that are left: an operand is read one level further in, and what stands in its parentheses
two.
-/

namespace TraceViewer.Snippet

namespace Production

variable {inner : Level} {m k : Nat} {ls ts : List Lexeme} {e : Expr}

/-! ## 1. Primaries -/

/-- A production that takes the next token and goes on as the token says. -/
theorem yields_next {β : Type} {l : Lexeme} {f : Cursor → Production β} {k' : Nat}
    {ls' : List Lexeme} {b : β}
    (hf : ∀ c, c.lexeme.unplaced = l → Yields m k ls (f c) k' ls' b) :
    Yields m k (l :: ls) (do
      let c ← get
      advance
      f c) k' ls' b :=
  .get fun c hc => yields_advance.bind (hf c hc.unplaced)

theorem ne_of_isReserved {word name : String} (hword : word ∈ reservedWords)
    (hname : isReserved name = false) : (name == word) = false := by
  refine beq_eq_false_iff_ne.mpr fun heq => ?_
  rw [isReserved, heq, List.contains_iff_mem.mpr hword] at hname
  cases hname

theorem yields_primary_number (x : Float) :
    Yields m k (.number x :: ls) (primary inner) k ls (.number x) := by
  refine yields_next fun c hc => ?_
  rw [eq_of_unplaced hc nofun]
  exact .pure

theorem yields_primary_atom (h : e.IsPrintable) (hatom : e.isAtom = true) :
    Yields m k (e.lexemes ++ ls) (primary inner) k ls e := by
  cases e with
  | number x => exact yields_primary_number x
  | text s =>
    refine yields_next fun c hc => ?_
    rw [eq_of_unplaced hc nofun]
    exact .pure
  | bool b =>
    refine yields_next fun c hc => ?_
    rw [eq_of_unplaced hc nofun]
    cases b <;> exact .pure
  | null =>
    refine yields_next fun c hc => ?_
    rw [eq_of_unplaced hc nofun]
    exact .pure
  | undefined =>
    refine yields_next fun c hc => ?_
    rw [eq_of_unplaced hc nofun]
    exact .pure
  | ident name =>
    refine yields_next fun c hc => ?_
    rw [eq_of_unplaced hc nofun]
    have hother (word : String) (hword : word ∈ reservedWords) := ne_of_isReserved hword h.2
    dsimp only
    rw [hother "true" (by decide), hother "false" (by decide), hother "null" (by decide),
      hother "undefined" (by decide), hother "function" (by decide), h.2]
    exact .pure
  | _ => cases hatom

/-- What stands in parentheses is read one level further in. -/
theorem yields_primary_parens (he : YieldsUntil m inner.assignment closes k ts e) :
    Yields m k (.punct .parenOpen :: (ts ++ [.punct .parenClose]) ++ ls) (primary inner) k ls
      e := by
  rw [List.cons_append, List.append_assoc]
  refine yields_next fun c hc => ?_
  rw [eq_punct_of_unplaced hc]
  exact (he _ rfl).bind (yields_expect.bind .pure)

theorem yields_primary_operand (h : e.IsPrintable)
    (he : e.isAtom = false → YieldsUntil m inner.assignment closes k e.lexemes e) :
    Yields m k (e.operand ++ ls) (primary inner) k ls e := by
  cases hatom : e.isAtom with
  | true =>
    rw [operand_of_isAtom hatom]
    exact yields_primary_atom h hatom
  | false =>
    rw [operand_of_not hatom]
    exact yields_primary_parens (he hatom)

theorem operand_ne_nil (e : Expr) (h : e.IsPrintable) : e.operand ≠ [] := by
  obtain ⟨l, ls, hl, -⟩ := operand_start h
  rw [hl]
  exact List.cons_ne_nil l ls

theorem yields_primary_array {items : List Expr} (hprintable : ∀ d ∈ items, d.IsPrintable)
    (h : ∀ d ∈ items, YieldsUntil m inner.assignment closes k d.operand d) :
    Yields m k ((Expr.array items).lexemes ++ ls) (primary inner) k ls (.array items) := by
  rw [Expr.lexemes, itemLexemes_eq, List.cons_append, List.append_assoc]
  refine yields_next fun c hc => ?_
  rw [eq_punct_of_unplaced hc]
  refine yields_bound fun rounds hrounds => ?_
  have hlength : (items.map Expr.operand).length ≤ _ :=
    length_le_commas (List.forall_mem_map.mpr fun d hd => operand_ne_nil d (hprintable d hd))
  rw [List.length_map] at hlength
  rw [List.length_append] at hrounds
  exact (yields_itemsFrom [] hprintable h (by omega)).bind .pure

theorem yields_primary_object {entries : List (String × Expr)}
    (h : ∀ x ∈ entries, YieldsUntil m inner.assignment closes k x.2.operand x.2) :
    Yields m k ((Expr.object entries).lexemes ++ ls) (primary inner) k ls (.object entries) := by
  rw [Expr.lexemes, entryLexemes_eq, List.cons_append, List.append_assoc]
  refine yields_next fun c hc => ?_
  rw [eq_punct_of_unplaced hc]
  refine yields_bound fun rounds hrounds => ?_
  have hlength : (entries.map entry).length ≤ _ :=
    length_le_commas (List.forall_mem_map.mpr fun _ _ => List.cons_ne_nil _ _)
  rw [List.length_map] at hlength
  rw [List.length_append] at hrounds
  exact (yields_entriesFrom [] h (by omega)).bind .pure

/-! ## 2. Templates -/

theorem yields_expectEnd : Yields m k [] expectEnd k [] () := by
  refine .get fun c hc => ?_
  have hlexeme : c.lexeme = .finish := hc.lexeme nofun
  have hend : c.atEnd = true := by
    unfold Cursor.atEnd
    rw [hlexeme]
  rw [hend]
  exact .pure

theorem yields_hole {h : Hole} (hprintable : e.IsPrintable)
    (hsource : h.source = .ofList (joined e.operand))
    (he : YieldsUntil m inner.assignment closes k e.operand e) :
    Yields m k ls (hole inner h) k ls e := by
  obtain ⟨ts, htokenize, hts⟩ := tokenize_hole hprintable
  intro c hc
  have hinside : Cursor.IsAt { c with tokens := ts.map (Token.shifted h.offset) } k e.operand := by
    refine ⟨?_, hc.depth⟩
    rw [List.map_map]
    exact hts
  -- the tokens of the template come back, whatever was read
  have hback : Yields m k [] (modify fun c' => { c' with tokens := c.tokens }) k ls () :=
    fun c' hc' => .inl ⟨_, rfl, hc.tokens, hc'.depth⟩
  have he := he [] rfl
  rw [List.append_nil] at he
  have hyields : Yields m k e.operand (do
      let e ← inner.assignment
      expectEnd
      modify fun c' => { c' with tokens := c.tokens }
      return e) k ls e :=
    he.bind (yields_expectEnd.bind (hback.bind .pure))
  unfold hole
  rw [hsource, htokenize]
  exact hyields _ hinside

theorem yields_holes {es : List Expr} {hs : List Hole}
    (hs' : hs.map (fun h => ⟨0, h.source⟩) = holesOf es) (hprintable : ∀ d ∈ es, d.IsPrintable)
    (h : ∀ d ∈ es, YieldsUntil m inner.assignment closes k d.operand d) :
    Yields m k ls (holes inner hs) k ls es := by
  rw [holesOf_eq] at hs'
  induction es generalizing hs with
  | nil =>
    obtain rfl := List.map_eq_nil_iff.mp hs'
    exact .pure
  | cons e es ih =>
    obtain ⟨hole, hs, rfl, hhole, hs'⟩ := List.map_eq_cons_iff.mp hs'
    obtain ⟨heprintable, hprintable⟩ := List.forall_mem_cons.mp hprintable
    obtain ⟨he, hes⟩ := List.forall_mem_cons.mp h
    have hsource : hole.source = .ofList (joined e.operand) := congrArg Hole.source hhole
    refine (yields_hole heprintable hsource he).bind ?_
    exact (ih hs' hprintable hes).bind .pure

theorem yields_primary_template {parts : List String} {es : List Expr}
    (hprintable : ∀ d ∈ es, d.IsPrintable)
    (h : ∀ d ∈ es, YieldsUntil m inner.assignment closes k d.operand d) :
    Yields m k ((Expr.template parts es).lexemes ++ ls) (primary inner) k ls
      (.template parts es) := by
  rw [Expr.lexemes]
  refine yields_next fun c hc => ?_
  cases hlexeme : c.lexeme with
  | template parts' hs =>
    rw [hlexeme] at hc
    obtain ⟨rfl, hs'⟩ := Lexeme.template.inj hc
    exact (yields_holes hs' hprintable h).bind .pure
  | _ =>
    rw [hlexeme] at hc
    cases hc

/-! ## 3. Chains -/

/-- What a chain of links ends at. -/
def endsLinks (l : Lexeme) : Bool :=
  [.optionalDot, .bracketOpen, .parenOpen, .dot].all fun p => !l.isPunct p

theorem endsLinks_of_endsUnary {l : Lexeme} (h : endsUnary l = true) : endsLinks l = true :=
  List.all_eq_true.mpr fun p hp =>
    List.all_eq_true.mp h p (List.mem_append_left [Punct.plusPlus, Punct.minusMinus] hp)

theorem yields_linksFrom_none {links rounds k' : Nat} (hls : endsLinks (firstOf ls) = true)
    (hrounds : 0 < rounds) (hk : k' = k + links) :
    Yields m k' ls (linksFrom inner links e rounds) k ls e := by
  obtain ⟨rounds, rfl⟩ := Nat.exists_eq_succ_of_ne_zero (Nat.ne_of_gt hrounds)
  have hother (p : Punct) (hp : p ∈ [.optionalDot, .bracketOpen, .parenOpen, .dot]) :
      (firstOf ls).isPunct p = false :=
    Bool.not_eq_true' _ |>.mp (List.all_eq_true.mp hls p hp)
  subst hk
  exact yields_eat_other (hother _ (by decide)) (yields_eat_other (hother _ (by decide))
    (yields_eat_other (hother _ (by decide)) (yields_eat_other (hother _ (by decide))
      (yields_ascend.bind .pure))))

/-- A question mark with a dot is taken where it stands in front of a link. -/
theorem yields_guard {β : Type} {f : Bool → Production β} {b : β} {k' : Nat} {ls' : List Lexeme}
    (guarded : Bool) (hls : (firstOf ls).isPunct .optionalDot = false)
    (hf : Yields m k ls (f guarded) k' ls' b) :
    Yields m k ((if guarded then [.punct .optionalDot] else []) ++ ls)
      (eat .optionalDot >>= f) k' ls' b := by
  cases guarded with
  | true => exact yields_eat hf
  | false => exact yields_eat_other hls hf

/-- What stands behind the dot of a member. -/
theorem yields_property {property : String} (guarded : Bool) {rounds : Nat} (hrounds : 0 < rounds)
    (hls : endsLinks (firstOf ls) = true) :
    Yields m (k + 1) (.name property :: ls) (do
      let lexeme := (← get).lexeme
      advance
      match lexeme with
      | .name property => linksFrom inner (0 + 1) (.member e property guarded) rounds
      | _ => fail .propertyName) k ls (.member e property guarded) := by
  refine yields_next fun c hc => ?_
  rw [eq_of_unplaced hc fun _ _ h => by cases h]
  exact yields_linksFrom_none hls hrounds rfl

theorem yields_member {property : String} (guarded : Bool) {rounds : Nat} (hk : k < m)
    (hrounds : 1 < rounds) (hls : endsLinks (firstOf ls) = true) :
    Yields m k ([.punct (if guarded then .optionalDot else .dot), .name property] ++ ls)
      (linksFrom inner 0 e rounds) k ls (.member e property guarded) := by
  obtain ⟨rounds, rfl⟩ := Nat.exists_eq_succ_of_ne_zero (Nat.ne_of_gt (Nat.zero_lt_of_lt hrounds))
  have hrounds := Nat.lt_of_succ_lt_succ hrounds
  cases guarded with
  | true =>
    exact yields_eat (yields_eat_other rfl (yields_eat_other rfl ((yields_descend hk).bind
      (yields_property true hrounds hls))))
  | false =>
    exact yields_eat_other rfl (yields_eat_other rfl (yields_eat_other rfl (yields_eat
      ((yields_descend hk).bind (yields_property false hrounds hls)))))

theorem yields_index {d : Expr} (guarded : Bool) {rounds : Nat} (hk : k < m)
    (hd : YieldsUntil m inner.assignment closes (k + 1) d.operand d)
    (hrounds : 1 < rounds) (hls : endsLinks (firstOf ls) = true) :
    Yields m k ((if guarded then [.punct .optionalDot] else []) ++
        .punct .bracketOpen :: (d.operand ++ .punct .bracketClose :: ls))
      (linksFrom inner 0 e rounds) k ls (.index e d guarded) := by
  obtain ⟨rounds, rfl⟩ := Nat.exists_eq_succ_of_ne_zero (Nat.ne_of_gt (Nat.zero_lt_of_lt hrounds))
  exact yields_guard guarded rfl (yields_eat ((yields_descend hk).bind ((hd _ rfl).bind
    (yields_expect.bind (yields_linksFrom_none hls (Nat.lt_of_succ_lt_succ hrounds) rfl)))))

theorem yields_arguments {args : List Expr} (hprintable : ∀ d ∈ args, d.IsPrintable)
    (h : ∀ d ∈ args, YieldsUntil m inner.assignment closes k d.operand d) :
    Yields m k (commas (args.map Expr.operand) ++ .punct .parenClose :: ls) (arguments inner) k ls
      args := by
  cases args with
  | nil => exact yields_eat .pure
  | cons d args =>
    have hother : (firstOf (commas ((d :: args).map Expr.operand) ++
        .punct .parenClose :: ls)).isPunct .parenClose = false := by
      obtain ⟨hd, -⟩ := List.forall_mem_cons.mp hprintable
      cases args with
      | nil => exact isPunct_operand hd _ nofun
      | cons =>
        rw [commas_map_cons, List.append_assoc]
        exact isPunct_operand hd _ nofun
    refine yields_eat_other hother (yields_bound fun rounds hrounds => ?_)
    have hlength : ((d :: args).map Expr.operand).length ≤ _ :=
      length_le_commas (List.forall_mem_map.mpr fun d hd => operand_ne_nil d (hprintable d hd))
    rw [List.length_map, List.length_cons] at hlength
    rw [List.length_append] at hrounds
    exact yields_argumentsFrom [] h (by omega)

theorem yields_call {args : List Expr} (guarded : Bool) {rounds : Nat} (hk : k < m)
    (hprintable : ∀ d ∈ args, d.IsPrintable)
    (h : ∀ d ∈ args, YieldsUntil m inner.assignment closes (k + 1) d.operand d)
    (hrounds : 1 < rounds) (hls : endsLinks (firstOf ls) = true) :
    Yields m k ((if guarded then [.punct .optionalDot] else []) ++
        .punct .parenOpen :: (commas (args.map Expr.operand) ++ .punct .parenClose :: ls))
      (linksFrom inner 0 e rounds) k ls (.call e args guarded) := by
  obtain ⟨rounds, rfl⟩ := Nat.exists_eq_succ_of_ne_zero (Nat.ne_of_gt (Nat.zero_lt_of_lt hrounds))
  exact yields_guard guarded rfl (yields_eat_other rfl (yields_eat ((yields_descend hk).bind
    ((yields_arguments hprintable h).bind
      (yields_linksFrom_none hls (Nat.lt_of_succ_lt_succ hrounds) rfl)))))

/-! ## 4. Unary expressions -/

/-- Whether a unary expression that starts so has an operator in front. -/
def isPrefix (l : Lexeme) : Bool :=
  l.isPunct .plusPlus || l.isPunct .minusMinus || (unaryOp? l).isSome

theorem unaryOp?_unplaced (l : Lexeme) : unaryOp? l.unplaced = unaryOp? l := by
  cases l <;> rfl

theorem unaryOp?_name {word : String} (h : word ≠ "typeof") : unaryOp? (.name word) = none := by
  unfold unaryOp?
  split
  · next heq => cases heq
  · next heq => cases heq
  · next heq => cases heq
  · next heq => exact absurd (Lexeme.name.inj heq) h
  · rfl

theorem isPrefix_operand (h : e.IsPrintable) (ls : List Lexeme) :
    isPrefix (firstOf (e.operand ++ ls)) = false := by
  obtain ⟨l, ls', hl, hatom | rfl⟩ := operand_start h
  · rw [hl]
    cases l with
    | number => rfl
    | text => rfl
    | name word =>
      show (unaryOp? (.name word)).isSome = false
      rw [unaryOp?_name (bne_iff_ne.mp hatom)]
      rfl
    | _ => cases hatom
  · rw [hl]
    rfl

/-- Without an operator in front the expression is a chain. -/
theorem yields_unaryLevel {ls' : List Lexeme} (hls : isPrefix (firstOf ls) = false)
    (h : Yields m k ls (postfixed inner) k ls' e) : Yields m k ls (unaryLevel inner) k ls' e := by
  unfold isPrefix at hls
  simp only [Bool.or_eq_false_iff] at hls
  obtain ⟨⟨hplus, hminus⟩, hop⟩ := hls
  refine .get fun c hc => ?_
  have hnone : unaryOp? c.lexeme = none := by
    rw [← unaryOp?_unplaced, hc.unplaced]
    exact Option.isSome_eq_false_iff.mp hop |> Option.isNone_iff_eq_none.mp
  rw [hc.atPunct, hc.atPunct, hplus, hminus, hnone]
  exact h

theorem not_update {l : Lexeme} (h : endsUnary l = true) :
    (l.isPunct .plusPlus || l.isPunct .minusMinus) = false :=
  Bool.or_eq_false_iff.mpr
    ⟨Bool.not_eq_true' _ |>.mp (List.all_eq_true.mp h .plusPlus (by decide)),
      Bool.not_eq_true' _ |>.mp (List.all_eq_true.mp h .minusMinus (by decide))⟩

/-- A primary with some links behind it, or with none. -/
theorem yields_postfixed {us : List Lexeme} {head : Expr}
    (hhead : ∀ ls, Yields m k (ts ++ ls) (primary inner) k ls head)
    (hlinks : ∀ rounds, (us ++ ls).length < rounds →
      Yields m k (us ++ ls) (linksFrom inner 0 head rounds) k ls e)
    (hls : endsUnary (firstOf ls) = true) :
    Yields m k (ts ++ (us ++ ls)) (postfixed inner) k ls e := by
  refine (hhead _).bind (yields_bound fun rounds hrounds => (hlinks rounds hrounds).bind ?_)
  refine .get fun c hc => ?_
  rw [hc.atPunct, hc.atPunct, not_update hls]
  exact .pure

/-- A primary without links. -/
theorem yields_chain_none (hhead : ∀ ls, Yields m k (ts ++ ls) (primary inner) k ls e)
    (hstart : ∀ ls, isPrefix (firstOf (ts ++ ls)) = false) :
    YieldsUntil m (unaryLevel inner) endsUnary k ts e := by
  intro ls hls
  have hlinks (rounds : Nat) (hrounds : ([] ++ ls).length < rounds) :
      Yields m k ([] ++ ls) (linksFrom inner 0 e rounds) k ls e :=
    yields_linksFrom_none (endsLinks_of_endsUnary hls) (Nat.zero_lt_of_lt hrounds) rfl
  exact yields_unaryLevel (hstart ls) (yields_postfixed hhead hlinks hls)

/-- One link behind an operand. -/
theorem yields_chain {us : List Lexeme} {head : Expr} (h : head.IsPrintable)
    (hhead : head.isAtom = false → YieldsUntil m inner.assignment closes k head.lexemes head)
    (hus : us ≠ [])
    (hlinks : ∀ ls rounds, endsLinks (firstOf ls) = true → 1 < rounds →
      Yields m k (us ++ ls) (linksFrom inner 0 head rounds) k ls e) :
    YieldsUntil m (unaryLevel inner) endsUnary k (head.operand ++ us) e := by
  intro ls hls
  rw [List.append_assoc]
  refine yields_unaryLevel (isPrefix_operand h _) (yields_postfixed
    (fun _ => yields_primary_operand h hhead) (fun rounds hrounds => ?_) hls)
  -- the tokens of the link are enough for a second round
  refine hlinks ls rounds (endsLinks_of_endsUnary hls) (Nat.lt_of_le_of_lt ?_ hrounds)
  rw [List.length_append]
  exact Nat.le_trans (List.length_pos_iff.mpr hus) (Nat.le_add_right _ _)

theorem yields_update_after {name : String} (h : IsVariable name) (increment : Bool) :
    YieldsUntil m (unaryLevel inner) endsUnary k (Expr.update name increment false).lexemes
      (.update name increment false) := by
  intro ls hls
  have hname : (Expr.ident name).IsPrintable := h
  rw [Expr.lexemes]
  refine yields_unaryLevel (isPrefix_operand hname _) ((yields_primary_atom hname rfl).bind
    (yields_bound fun rounds hrounds => ?_))
  -- the chain ends at the mark behind the name
  have hlinks : Yields m k ([.punct (if increment then .plusPlus else .minusMinus)] ++ ls)
      (linksFrom inner 0 (.ident name) rounds) k _ (.ident name) :=
    yields_linksFrom_none (by cases increment <;> rfl) (Nat.zero_lt_of_lt hrounds) rfl
  refine hlinks.bind (.get fun c hc => ?_)
  rw [hc.atPunct, hc.atPunct]
  cases increment <;> exact yields_advance.bind .pure

theorem yields_update_before {name : String} (increment : Bool)
    (h : YieldsUntil m inner.unary endsUnary k [.name name] (.ident name)) :
    YieldsUntil m (unaryLevel inner) endsUnary k (Expr.update name increment true).lexemes
      (.update name increment true) := by
  intro ls hls
  rw [Expr.lexemes]
  refine .get fun c hc => ?_
  rw [hc.atPunct, hc.atPunct]
  cases increment <;> exact yields_advance.bind ((h ls hls).bind .pure)

theorem yields_unary {d : Expr} (op : UnaryOp)
    (h : YieldsUntil m inner.unary endsUnary k d.operand d) :
    YieldsUntil m (unaryLevel inner) endsUnary k (Expr.unary op d).lexemes (.unary op d) := by
  intro ls hls
  rw [Expr.lexemes]
  refine .get fun c hc => ?_
  have hlexeme : c.lexeme = op.lexeme := hc.lexeme fun _ _ h => by cases op <;> cases h
  rw [hc.atPunct, hc.atPunct, hlexeme]
  cases op <;> exact yields_advance.bind ((h ls hls).bind .pure)

/-! ## 5. Assignments -/

theorem closes_cases {l : Lexeme} (h : closes l = true) :
    endsDisjunction l = true ∧ l.isPunct .question = false ∧ opAt? assignmentOp? l = none ∧
      l.isPunct .arrow = false := by
  unfold closes at h
  split at h
  · exact ⟨rfl, rfl, rfl, rfl⟩
  · exact ⟨rfl, rfl, rfl, rfl⟩
  · exact ⟨rfl, rfl, rfl, rfl⟩
  · exact ⟨rfl, rfl, rfl, rfl⟩
  · exact ⟨rfl, rfl, rfl, rfl⟩
  · exact ⟨rfl, rfl, rfl, rfl⟩
  · cases h

/-- What is no function and no assignment is read as a conditional. -/
theorem yields_assignmentLevel {ls' : List Lexeme} (harrow : isArrow (ls ++ [.finish]) = false)
    (h : Yields m k ls (conditional inner) k ls' e)
    (hls' : opAt? assignmentOp? (firstOf ls') = none) :
    Yields m k ls (assignmentLevel inner) k ls' e := by
  refine (yields_arrowParams_none harrow).bind (h.bind (.get fun c hc => ?_))
  have hlexeme : opAt? assignmentOp? c.lexeme = none := by rw [← opAt?_unplaced, hc.unplaced, hls']
  dsimp only
  split
  · exact .pure
  · next heq => cases hlexeme.symm.trans heq

/-- Without a question mark the condition is all there is. -/
theorem yields_conditional {ls' : List Lexeme} (h : Yields m k ls (disjunction inner) k ls' e)
    (hls' : (firstOf ls').isPunct .question = false) : Yields m k ls (conditional inner) k ls' e :=
  h.bind (yields_eat_other hls' .pure)

theorem yields_of_disjunction (harrow : ∀ ls, isArrow (ts ++ ls) = false)
    (h : YieldsUntil m (disjunction inner) endsDisjunction k ts e) :
    YieldsUntil m (assignmentLevel inner) closes k ts e := by
  intro ls hls
  obtain ⟨hends, hquestion, hop, -⟩ := closes_cases hls
  refine yields_assignmentLevel ?_ (yields_conditional (h ls hends) hquestion) hop
  rw [List.append_assoc]
  exact harrow _

theorem yields_operand (h : e.IsPrintable)
    (hunary : YieldsUntil m inner.unary endsUnary k e.operand e) :
    YieldsUntil m (assignmentLevel inner) closes k e.operand e := by
  intro ls hls
  obtain ⟨hends, hquestion, hop, harrow⟩ := closes_cases hls
  refine yields_assignmentLevel ?_
    (yields_conditional (yields_of_unary hunary ls hends) hquestion) hop
  rw [List.append_assoc]
  refine isArrow_operand h ?_
  cases ls with
  | nil => rfl
  | cons => exact harrow

theorem yields_cond {test yes no : Expr}
    (harrow : ∀ ls, isArrow ((Expr.cond test yes no).lexemes ++ ls) = false)
    (htest : YieldsUntil m inner.unary endsUnary k test.operand test)
    (hyes : YieldsUntil m inner.assignment closes k yes.operand yes)
    (hno : YieldsUntil m inner.assignment closes k no.operand no) :
    YieldsUntil m (assignmentLevel inner) closes k (Expr.cond test yes no).lexemes
      (.cond test yes no) := by
  intro ls hls
  obtain ⟨-, -, hop, -⟩ := closes_cases hls
  refine yields_assignmentLevel ?_ ?_ hop
  · rw [List.append_assoc]
    exact harrow _
  · rw [Expr.lexemes, List.append_assoc, List.cons_append, List.append_assoc]
    exact (yields_of_unary htest _ rfl).bind (yields_eat ((hyes _ rfl).bind
      (yields_expect.bind ((hno ls hls).bind .pure))))

theorem yields_assign {name : String} {op : Option BinaryOp} {value : Expr}
    (hop : assigns op = true)
    (harrow : ∀ ls, isArrow ((Expr.assign name op value).lexemes ++ ls) = false)
    (hname : YieldsUntil m inner.unary endsUnary k [.name name] (.ident name))
    (hvalue : YieldsUntil m inner.assignment closes k value.operand value) :
    YieldsUntil m (assignmentLevel inner) closes k (Expr.assign name op value).lexemes
      (.assign name op value) := by
  intro ls hls
  have hpunct : endsDisjunction (.punct (assignmentPunct op)) = true ∧
      (assignmentPunct op == .question) = false ∧ assignmentOp? (assignmentPunct op) = some op := by
    cases op with
    | none => exact ⟨rfl, rfl, rfl⟩
    | some op => cases op <;> first | exact ⟨rfl, rfl, rfl⟩ | cases hop
  obtain ⟨hends, hquestion, hop⟩ := hpunct
  refine (yields_arrowParams_none ?_).bind ?_
  · rw [List.append_assoc]
    exact harrow _
  rw [Expr.lexemes]
  have htarget := yields_of_unary hname (.punct (assignmentPunct op) :: (value.operand ++ ls)) hends
  refine (yields_conditional htarget hquestion).bind (.get fun c hc => ?_)
  have hlexeme : opAt? assignmentOp? c.lexeme = some op := by
    rw [← opAt?_unplaced, hc.unplaced]
    exact hop
  dsimp only
  split
  · next heq => cases hlexeme.symm.trans heq
  next heq =>
  cases hlexeme.symm.trans heq
  exact yields_advance.bind ((hvalue ls hls).bind .pure)

theorem yields_function {params : List String} {body : Expr}
    (hparams : ∀ name ∈ params, IsVariable name) (hprintable : body.IsPrintable)
    (hbody : YieldsUntil m inner.assignment closes k body.operand body) :
    YieldsUntil m (assignmentLevel inner) closes k
      (Expr.function (.mk none params (.expr body))).lexemes
      (.function (.mk none params (.expr body))) := by
  intro ls hls
  rw [Expr.lexemes, Function.lexemes, Body.lexemes, List.cons_append, List.append_assoc]
  refine (yields_arrowParams fun name hname => (hparams name hname).2).bind (.get fun c hc => ?_)
  -- an object as a body stands in parentheses, so no block starts here
  have hbrace : c.atPunct .braceOpen = false :=
    (hc.atPunct _).trans (isPunct_operand hprintable ls (by decide))
  rw [hbrace]
  exact (hbody ls hls).map.bind .pure

/-! ## 6. Levels -/

/-- How many levels an operand takes: none if it is a single token, and else five for each level of
the tree. -/
def room (e : Expr) : Nat := if e.isAtom then 0 else 5 * e.height

theorem room_of_isAtom (h : e.isAtom = true) : room e = 0 := if_pos h

theorem room_of_not (h : e.isAtom = false) : room e = 5 * e.height :=
  if_neg (by rw [h]; exact Bool.false_ne_true)

theorem room_le (e : Expr) : room e ≤ 5 * e.height := by
  cases h : e.isAtom with
  | true => exact room_of_isAtom h ▸ Nat.zero_le _
  | false => exact Nat.le_of_eq (room_of_not h)

/-- Whether the production of unary expressions reads it. -/
def isUnary : Expr → Bool
  | .array _ | .object _ | .unary .. | .update .. | .member .. | .index .. | .call ..
  | .template .. => true
  | _ => false

/-- With `n` levels left the productions give back the expressions that were printed, as operands
and as a whole, if they fit in `m` levels from the depth `k` on.  A chain may start one level deeper
than the assignment around it. -/
structure GivesBack (m n : Nat) (l : Level) : Prop where
  unary : ∀ {e k}, e.IsPrintable → maxSourceNesting < n + k → k + 1 + room e ≤ m →
    YieldsUntil m l.unary endsUnary k e.operand e
  operand : ∀ {e k}, e.IsPrintable → maxSourceNesting < n + k → k + 2 + room e ≤ m →
    YieldsUntil m l.assignment closes k e.operand e
  chain : ∀ {e k}, e.IsPrintable → isUnary e = true → maxSourceNesting < n + k →
    k + 5 * e.height ≤ m + 1 → YieldsUntil m l.unary endsUnary k e.lexemes e
  whole : ∀ {e k}, e.IsPrintable → maxSourceNesting < n + k → k + 5 * e.height ≤ m →
    YieldsUntil m l.assignment closes k e.lexemes e

section Inner

variable {n : Nat} (H : GivesBack m n inner)
include H

/-- What stands right below an expression has five levels less to fit in. -/
theorem GivesBack.unary_below {d : Expr} (h : e.IsPrintable) (hd : d ∈ e.children)
    (hk : maxSourceNesting < n + k) (hroom : k + 5 * e.height ≤ m + 4) :
    YieldsUntil m inner.unary endsUnary k d.operand d := by
  have hlt := h.height_lt hd
  have hle := room_le d
  exact H.unary (h.children d hd) hk (by omega)

theorem GivesBack.operand_below {d : Expr} (h : e.IsPrintable) (hd : d ∈ e.children)
    (hk : maxSourceNesting < n + k) (hroom : k + 5 * e.height ≤ m + 3) :
    YieldsUntil m inner.assignment closes k d.operand d := by
  have hlt := h.height_lt hd
  have hle := room_le d
  exact H.operand (h.children d hd) hk (by omega)

theorem GivesBack.whole_below {d : Expr} (h : e.IsPrintable) (hd : d ∈ e.children)
    (hk : maxSourceNesting < n + k) (hroom : k + 5 * e.height ≤ m + 5) :
    YieldsUntil m inner.assignment closes k d.lexemes d := by
  have hlt := h.height_lt hd
  exact H.whole (h.children d hd) hk (by omega)

/-- A variable is read with one level. -/
theorem GivesBack.variable {name : String} (h : IsVariable name) (hk : maxSourceNesting < n + k)
    (hdeep : k < m) : YieldsUntil m inner.unary endsUnary k [.name name] (.ident name) :=
  H.unary (e := .ident name) h hk (by rwa [room_of_isAtom rfl])

/-- An operand is a single token, or it stands in parentheses. -/
theorem GivesBack.unaryLevel_operand (h : e.IsPrintable) (hk : maxSourceNesting < n + k)
    (hroom : k + room e ≤ m) : YieldsUntil m (unaryLevel inner) endsUnary k e.operand e := by
  refine yields_chain_none (fun ls => yields_primary_operand h fun hatom => H.whole h hk ?_)
    (isPrefix_operand h)
  rwa [room_of_not hatom] at hroom

theorem GivesBack.unaryLevel_lexemes (h : e.IsPrintable) (hunary : isUnary e = true)
    (hk : maxSourceNesting < n + k) (hroom : k + 5 * e.height ≤ m + 2) :
    YieldsUntil m (unaryLevel inner) endsUnary k e.lexemes e := by
  have hpos := e.height_pos
  have hdeep : k < m := by omega
  have hoperand : ∀ d ∈ e.children, YieldsUntil m inner.assignment closes k d.operand d :=
    fun d hd => H.operand_below h hd hk (by omega)
  -- a link takes a level before its index or its arguments are read
  have hinside : ∀ d ∈ e.children, YieldsUntil m inner.assignment closes (k + 1) d.operand d :=
    fun d hd => H.operand_below h hd (Nat.lt_succ_of_lt hk) (by omega)
  have hwhole : ∀ d ∈ e.children, YieldsUntil m inner.assignment closes k d.lexemes d :=
    fun d hd => H.whole_below h hd hk (by omega)
  cases e with
  | array items =>
    exact yields_chain_none (fun ls => yields_primary_array h.children hoperand) fun ls => rfl
  | object entries =>
    refine yields_chain_none (fun ls => yields_primary_object fun x hx => ?_) fun ls => rfl
    exact hoperand x.2 (List.mem_map_of_mem hx)
  | template parts holes =>
    exact yields_chain_none (fun ls => yields_primary_template h.children hoperand) fun ls => rfl
  | unary op d =>
    exact yields_unary op (H.unary_below h (.head _) hk (by omega))
  | update name increment before =>
    cases before with
    | false => exact yields_update_after h increment
    | true => exact yields_update_before increment (H.variable h hk hdeep)
  | member target property guarded =>
    rw [Expr.lexemes]
    exact yields_chain h.1 (fun _ => hwhole target (.head _)) (List.cons_ne_nil _ _)
      fun ls rounds hls hrounds => yields_member guarded hdeep hrounds hls
  | index target key guarded =>
    rw [Expr.lexemes, List.append_assoc]
    refine yields_chain h.1 (fun _ => hwhole target (.head _)) (List.append_ne_nil_of_right_ne_nil _
      (List.cons_ne_nil _ _)) fun ls rounds hls hrounds => ?_
    rw [List.append_assoc, List.cons_append, List.append_assoc]
    exact yields_index guarded hdeep (hinside key (.tail _ (.head _))) hrounds hls
  | call callee args guarded =>
    rw [Expr.lexemes, List.append_assoc, itemLexemes_eq]
    refine yields_chain h.1 (fun _ => hwhole callee (.head _)) (List.append_ne_nil_of_right_ne_nil _
      (List.cons_ne_nil _ _)) fun ls rounds hls hrounds => ?_
    rw [List.append_assoc, List.cons_append, List.append_assoc]
    exact yields_call guarded hdeep (fun d hd => h.children d (.tail _ hd))
      (fun d hd => hinside d (.tail _ hd)) hrounds hls
  | _ => cases hunary

theorem GivesBack.assignmentLevel_operand (h : e.IsPrintable) (hk : maxSourceNesting < n + k)
    (hroom : k + 1 + room e ≤ m) : YieldsUntil m (assignmentLevel inner) closes k e.operand e :=
  yields_operand h (H.unary h hk hroom)

theorem GivesBack.assignmentLevel_lexemes (h : e.IsPrintable) (hk : maxSourceNesting < n + k)
    (hroom : k + 5 * e.height ≤ m + 1) :
    YieldsUntil m (assignmentLevel inner) closes k e.lexemes e := by
  -- the cases are those in which the production itself goes on: a single token, a function, a unary
  -- expression, and then by the operator
  have hpos := e.height_pos
  have hdeep : k < m := by omega
  have hoperand : ∀ d ∈ e.children, YieldsUntil m inner.assignment closes k d.operand d :=
    fun d hd => H.operand_below h hd hk (by omega)
  have hunary : ∀ d ∈ e.children, YieldsUntil m inner.unary endsUnary k d.operand d :=
    fun d hd => H.unary_below h hd hk (by omega)
  -- the right operand of an operator stands one level deeper
  have hinside : ∀ d ∈ e.children, YieldsUntil m inner.unary endsUnary (k + 1) d.operand d :=
    fun d hd => H.unary_below h hd (Nat.lt_succ_of_lt hk) (by omega)
  cases hatom : e.isAtom with
  | true =>
    rw [← operand_of_isAtom hatom]
    exact H.assignmentLevel_operand h hk (by rw [room_of_isAtom hatom]; omega)
  | false =>
  cases hfunction : e.isFunction with
  | true =>
    match e, h, hoperand with
    | .function (.mk _ params (.expr body)), ⟨rfl, hparams, hbody⟩, hoperand =>
      exact yields_function hparams hbody (hoperand body (.head _))
  | false =>
  have harrow := isArrow_lexemes h hatom hfunction
  cases hchain : isUnary e with
  | true => exact yields_of_disjunction harrow (yields_of_unary (H.chain h hchain hk hroom))
  | false =>
  cases e with
  | binary op left right =>
    refine yields_of_disjunction harrow ?_
    rw [Expr.lexemes]
    exact yields_binary (hunary left (.head _)) (hinside right (.tail _ (.head _))) hdeep op
  | logical op left right =>
    refine yields_of_disjunction harrow ?_
    rw [Expr.lexemes]
    exact yields_logical (hunary left (.head _)) (hinside right (.tail _ (.head _))) hdeep op
  | cond test yes no =>
    exact yields_cond harrow (hunary test (.head _)) (hoperand yes (.tail _ (.head _)))
      (hoperand no (.tail _ (.tail _ (.head _))))
  | assign name op value =>
    exact yields_assign h.2.1 harrow (H.variable h.1 hk hdeep) (hoperand value (.head _))
  | pattern => exact h.elim
  | function => cases hfunction
  | array | object | unary | update | member | index | call | template => cases hchain
  | _ => cases hatom

end Inner

/-- Without levels left all is refused, and then there were not enough of them. -/
theorem givesBack_zero (m : Nat) : GivesBack m 0 (level 0) where
  unary _ hk hroom _ _ c _ := .inr ⟨by omega, c.offset, c, rfl⟩
  operand _ hk hroom _ _ c _ := .inr ⟨by omega, c.offset, c, rfl⟩
  chain {e k} _ _ hk hroom _ _ c _ := .inr ⟨by have := e.height_pos; omega, c.offset, c, rfl⟩
  whole _ hk hroom _ _ c _ := .inr ⟨by omega, c.offset, c, rfl⟩

theorem GivesBack.succ {n : Nat} (H : GivesBack m n (level n)) :
    GivesBack m (n + 1) (level (n + 1)) where
  unary h hk hroom ls hls := (H.unaryLevel_operand h (by omega) (by omega) ls hls).nested (by omega)
  operand h hk hroom ls hls :=
    (H.assignmentLevel_operand h (by omega) (by omega) ls hls).nested (by omega)
  chain {e k} h hunary hk hroom ls hls :=
    have hpos := e.height_pos
    (H.unaryLevel_lexemes h hunary (by omega) (by omega) ls hls).nested (by omega)
  whole {e k} h hk hroom ls hls :=
    have hpos := e.height_pos
    (H.assignmentLevel_lexemes h (by omega) (by omega) ls hls).nested (by omega)

theorem givesBack (m n : Nat) : GivesBack m n (level n) := by
  induction n with
  | zero => exact givesBack_zero m
  | succ n ih => exact ih.succ

/-! ## 7. Whole sources -/

theorem yields_source (h : Yields m 0 ls top.assignment 0 [] e) :
    Yields m 0 ls (do
      let e ← top.assignment
      skipSemicolon
      expectEnd
      return e) 0 [] e :=
  have hskip : Yields m 0 [] skipSemicolon 0 [] () := yields_eat_other rfl .pure
  h.bind (hskip.bind (yields_expectEnd.bind .pure))

end Production

open Production

/-- A source text is read as its tokens are, or refused for want of levels. -/
theorem readExpr_of_yields {source : String} {ts : List Token} {ls : List Lexeme} {e : Expr}
    {m : Nat} (htokenize : tokenize source = .ok ts)
    (hts : ts.map (fun t => t.lexeme.unplaced) = ls ++ [.finish])
    (h : Yields m 0 ls top.assignment 0 [] e) :
    readExpr source = .ok e ∨ maxSourceNesting < m ∧
      ∃ offset, readExpr source = .error (.badSource offset .tooDeep) := by
  unfold readExpr onSource
  rw [htokenize]
  dsimp only
  rcases yields_source h { tokens := ts } ⟨hts, rfl⟩ with ⟨c, hc, -⟩ | ⟨hdeep, offset, c, hc⟩
  · left
    rw [EStateM.run, hc]
  · refine .inr ⟨hdeep, offset, ?_⟩
    rw [EStateM.run, hc]

/-- What was printed is read back, or refused for want of levels where it needs more than there
are. -/
theorem readExpr_print_or {e : Expr} (h : e.IsPrintable) :
    readExpr (print e) = .ok e ∨ maxSourceNesting < 5 * e.height ∧
      ∃ offset, readExpr (print e) = .error (.badSource offset .tooDeep) := by
  obtain ⟨ts, htokenize, hts⟩ := tokenize_print h
  -- the budget is what the tree takes at most
  have hwhole := (givesBack (5 * e.height) (maxSourceNesting + 1)).whole h (k := 0)
    (Nat.lt_succ_self _) (by rw [Nat.zero_add]) [] rfl
  rw [List.append_nil] at hwhole
  exact readExpr_of_yields htokenize hts hwhole

/-- Parsing undoes printing: the expression comes back, or the nesting limit is hit, and that does
not happen to expressions up to a height of twenty-five. -/
theorem readExpr_print {e : Expr} (h : e.IsPrintable) :
    (readExpr (print e) = .ok e ∨
      ∃ offset, readExpr (print e) = .error (.badSource offset .tooDeep)) ∧
    (e.height ≤ 25 → readExpr (print e) = .ok e) := by
  rcases readExpr_print_or h with hok | ⟨hdeep, herror⟩
  · exact ⟨.inl hok, fun _ => hok⟩
  · refine ⟨.inr herror, fun hheight => absurd hdeep ?_⟩
    have hlimit : maxSourceNesting = 128 := rfl
    omega

/-- A function of two parameters: a division, a guarded member and an object with an array, and a
template with a mark to be escaped. -/
def crowdedFunction : Expr :=
  .function (.mk none ["a", "b"] (.expr (.cond
    (.binary .div (.ident "a") (.number (Number.ofNat 2)))
    (.template ["", " $\x7b"] [.call (.member (.ident "b") "typeof" true) [.text "\"\n"] false])
    (.object [("k", .array [.null, .assign "a" (some .div) (.update "b" true true)])]))))

theorem readExpr_print_crowdedFunction :
    crowdedFunction.IsPrintable ∧ readExpr (print crowdedFunction) = .ok crowdedFunction := by
  have ha : IsVariable "a" := by decide +kernel
  have hb : IsVariable "b" := by decide +kernel
  have htest : (Expr.binary .div (.ident "a") (.number (Number.ofNat 2))).IsPrintable :=
    ⟨ha, 2, by decide, rfl⟩
  have hcall : (Expr.call (.member (.ident "b") "typeof" true) [.text "\"\n"] false).IsPrintable :=
    ⟨⟨hb, by decide +kernel⟩, trivial, trivial⟩
  have hitems : ArePrintable [.null, .assign "a" (some .div) (.update "b" true true)] :=
    ⟨trivial, ⟨ha, rfl, hb⟩, trivial⟩
  have hprintable : crowdedFunction.IsPrintable :=
    ⟨rfl, by decide +kernel, htest, ⟨rfl, hcall, trivial⟩, hitems, trivial⟩
  exact ⟨hprintable, (readExpr_print hprintable).2 (by decide)⟩

end TraceViewer.Snippet
