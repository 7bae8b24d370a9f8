import TraceViewer.Proofs.Regex.Escaping
import TraceViewer.Proofs.Snippet.Pushing

/-!
# Replacing matches by themselves

Where a function gives back what it is called with, a text with its matches replaced by what the
function makes of them is the text itself: the parts between the matches, the matches and the rest
are the text, whichever matches there are.  This holds of any library that keeps its promises, and
the one thing that such a library may refuse to search for is a text that is too large.
-/

namespace TraceViewer.Snippet

open TraceViewer.Text

variable {α β : Type} {S : Setting} {m : Machine}

/-! ## 1. Runs that only limits stop -/

/-- Whether a machine has reached the limit that an error names. -/
def Machine.AtLimit (S : Setting) (m : Machine) : Error → Prop
  | .budgetSpent limit => limit = S.limits.steps ∧ S.limits.steps < m.steps
  | .tooManyCalls limit => limit = S.limits.depth ∧ S.limits.depth ≤ m.depth.now
  | .tooNested limit => limit = maxNesting ∧ maxNesting ≤ m.nesting.now
  | _ => False

/-- A run from `m` gives a value and takes so many steps, unless it reaches a limit first.  Either
way the calls and the levels under way are afterwards what they were. -/
inductive Delivers (S : Setting) (m : Machine) (a : α) (count : Nat) :
    EStateM.Result Error Machine α → Prop
  | value {n : Machine} (hsteps : n.steps = m.steps + count) (hcalls : n.depth.now = m.depth.now)
      (hlevels : n.nesting.now = m.nesting.now) : Delivers S m a count (.ok a n)
  | limit {e : Error} {n : Machine} (he : n.AtLimit S e) (hsteps : n.steps ≤ m.steps + count)
      (hcalls : n.depth.now = m.depth.now) (hlevels : n.nesting.now = m.nesting.now) :
      Delivers S m a count (.error e n)

namespace Delivers

variable {a : α} {b : β} {count more : Nat}

protected theorem pure (a : α) (m : Machine) : Delivers S m a 0 ((pure a : Run α) m) :=
  .value rfl rfl rfl

protected theorem bind {r : Run α} {f : α → Run β} (hr : Delivers S m a count (r m))
    (hf : ∀ n : Machine, n.nesting.now = m.nesting.now → Delivers S n b more (f a n)) :
    Delivers S m b (count + more) ((r >>= f) m) := by
  cases hrun : r m with
  | ok a' n =>
    rw [hrun] at hr
    cases hr with
    | value hsteps hcalls hlevels =>
      rw [Run.bind_ok hrun]
      have hrest := hf n hlevels
      generalize f a n = y at hrest
      cases hrest with
      | value hsteps' hcalls' hlevels' =>
        exact .value (by omega) (hcalls'.trans hcalls) (hlevels'.trans hlevels)
      | limit he hsteps' hcalls' hlevels' =>
        exact .limit he (by omega) (hcalls'.trans hcalls) (hlevels'.trans hlevels)
  | error e n =>
    rw [hrun] at hr
    rw [Run.bind_error hrun]
    cases hr with
    | limit he hsteps hcalls hlevels => exact .limit he (by omega) hcalls hlevels

protected theorem map (f : α → β) {r : Run α} (hr : Delivers S m a count (r m)) :
    Delivers S m (f a) count ((f <$> r) m) := by
  rw [map_eq_pure_bind]
  exact Delivers.bind (f := fun a => pure (f a)) hr fun n _ => .pure (f a) n

/-- A run with room for its steps and for one more call and level gives its value. -/
theorem eq_ok {x : EStateM.Result Error Machine α} (hx : Delivers S m a count x)
    (hsteps : m.steps + count ≤ S.limits.steps) (hcalls : m.depth.now < S.limits.depth)
    (hlevels : m.nesting.now < maxNesting) : ∃ n, x = .ok a n := by
  cases hx with
  | value _ _ _ => exact ⟨_, rfl⟩
  | @limit e n he hsteps' hcalls' hlevels' =>
    cases e <;> simp only [Machine.AtLimit] at he <;> omega

end Delivers

/-! ## 2. A function that gives its argument back -/

/-- The function `x => x` as a value. -/
def echo (x : String) (mark scope source : Nat) : Value :=
  .closure mark ⟨.mk none [x] (.expr (.ident x)), scope, source⟩

theorem Heap.find?_addScope_self (h : Heap) (parent : Option Nat) (x : String) (v : Value) :
    (h.addScope parent [(x, v)]).2.find? h.scopes.size x = some (h.scopes.size, v) := by
  have hscope : (h.addScope parent [(x, v)]).2.scopes[h.scopes.size]? = some ⟨[(x, v)], parent⟩ :=
    Array.getElem?_push_size
  rw [Heap.find?, hscope]
  simp only [List.lookup_cons_self]

theorem bindParams_single (x : String) (args : List Value) :
    Eval.bindParams [x] args = [(x, argument args 0)] := by
  cases args <;> rfl

/-- A call of `x => x` takes one step, and gives what it is called with. -/
theorem call_echo_delivers (x : String) (mark scope source : Nat) (args : List Value)
    {level : Gauge} (hlevel : m.nesting.now = level.now) :
    Delivers S m (argument args 0) 1
      (Eval.call S (Eval.within S level) (echo x mark scope source) args m) := by
  show Delivers S m _ 1 (Eval.counted S (Eval.inScope S ⟨scope, source⟩ scope
    (Eval.bindParams [x] args) some fun env => (Eval.within S level).eval env (.ident x)) m)
  rw [counted_apply, within_congr hlevel.symm, bindParams_single]
  split
  · next hcalls => exact .limit ⟨rfl, hcalls⟩ (Nat.le_add_right _ _) rfl rfl
  · -- the machine in the scope of the call
    let inside : Machine := { m with
      depth := m.depth.up, heap := (m.heap.addScope (some scope) [(x, argument args 0)]).2 }
    have heval := eval_apply S ⟨m.heap.scopes.size, source⟩ (.ident x) inside
    have hbody : Eval.evalBody S (Eval.within S inside.entered.nesting)
        ⟨m.heap.scopes.size, source⟩ (.ident x) inside.entered =
          .ok (argument args 0) inside.entered :=
      lookup_of_find? (Heap.find?_addScope_self ..)
    rw [inScope_apply]
    dsimp only
    rw [heval, stepped, hbody]
    by_cases hspent : S.limits.steps ≤ inside.steps
    · rw [if_pos hspent]
      exact .limit ⟨rfl, Nat.lt_succ_of_le hspent⟩ (Nat.le_refl _) rfl rfl
    · rw [if_neg hspent]
      by_cases hnested : maxNesting ≤ inside.nesting.now
      · rw [if_pos hnested]
        exact .limit ⟨rfl, hnested⟩ (Nat.le_refl _) rfl rfl
      · rw [if_neg hnested]
        exact .value rfl rfl rfl

/-! ## 3. The parts of a text -/

theorem take_append_part (cs : List Char) {start stop : Nat} (h : start ≤ stop) :
    cs.take start ++ (cs.take stop).drop start = cs.take stop := by
  have hstart : cs.take start = (cs.take stop).take start := by
    rw [List.take_take, Nat.min_eq_left h]
  rw [hstart, List.take_append_drop]

/-- What a function that gives back its first argument puts in the place of a match. -/
theorem replacementFor_delivers {call : Call} {f : Value} (hf : f.isCallable = true)
    (hcall : ∀ args, Delivers S m (argument args 0) 1 (call f args m)) (searcher : Regex.Searcher)
    (text : List Char) (found : Regex.Match) :
    Delivers S m (sliceBytes text found.whole.1 found.whole.2) 1
      (replacementFor call searcher text found f m) := by
  have hdisplay : (textOf (sliceBytes text found.whole.1 found.whole.2)).display.toList =
      sliceBytes text found.whole.1 found.whole.2 := String.toList_ofList
  -- the first argument is the whole match
  have hdelivers : Delivers S m (textOf (sliceBytes text found.whole.1 found.whole.2)) 1
      (call f (found.all.map (groupValue text)) m) := hcall (found.all.map (groupValue text))
  have hmap := hdelivers.map fun v => v.display.toList
  rw [hdisplay, map_eq_pure_bind] at hmap
  unfold replacementFor
  rw [if_pos hf]
  exact hmap

/-- The pieces up to a match and the parts from there on are the text. -/
theorem replaceFrom_delivers {call : Call} {f : Value} {level : Nat} (hf : f.isCallable = true)
    (hcall : ∀ args (n : Machine), n.nesting.now = level →
      Delivers S n (argument args 0) 1 (call f args n))
    (searcher : Regex.Searcher) (text : List Char) :
    ∀ (found : List Regex.Match) {last : Nat} {pieces : List (List Char)} {m : Machine},
      m.nesting.now = level → last ≤ text.length →
      Regex.InOrder text (byteOffset text last) found → pieces.reverse.flatten = text.take last →
      Delivers S m text found.length
        (replaceFrom call searcher text f (byteOffset text last) pieces found m) := by
  intro found
  induction found with
  | nil =>
    intro last pieces m _ hlast _ hpieces
    have hall : (dropBytes text (byteOffset text last) :: pieces).reverse.flatten = text := by
      rw [dropBytes_byteOffset text hlast, List.reverse_cons, List.flatten_append, hpieces,
        List.flatten_singleton, List.take_append_drop]
    unfold replaceFrom
    rw [hall]
    exact .pure text m
  | cons found rest ih =>
    intro last pieces m hlevel hlast hfound hpieces
    obtain ⟨⟨hbehind, hin, ⟨start, hstart, hbegins⟩, ⟨stop, hstop, hends⟩⟩, hrest⟩ := hfound
    have hreplaced := replacementFor_delivers hf (fun args => hcall args m hlevel) searcher text
      found
    rw [hbegins, hends] at hin hreplaced
    rw [hbegins] at hbehind
    rw [hends] at hrest
    have hbetween : last ≤ start := le_of_byteOffset_le text hlast hstart hbehind
    have hwhole : start ≤ stop := le_of_byteOffset_le text hstart hstop hin
    unfold replaceFrom
    rw [hbegins, hends, List.length_cons, Nat.add_comm]
    refine Delivers.bind hreplaced fun n hn => ih (hn.trans hlevel) hstop hrest ?_
    -- what stands up to the match, the part in between and the match make up the text so far
    rw [sliceBytes_byteOffset text hlast hstart, sliceBytes_byteOffset text hstart hstop,
      List.reverse_cons, List.reverse_cons, List.flatten_append, List.flatten_append, hpieces,
      List.flatten_singleton, List.flatten_singleton, take_append_part text hbetween,
      take_append_part text hwhole]

/-! ## 4. Replacing -/

/-- Whether a pattern value holds what the library makes of its literal; any other value stands for
its own text. -/
def Value.IsRead (library : Regex.Library) : Value → Prop
  | .pattern _ p => searcherOf library p.body p.flags = .ok p.searcher
  | _ => True

/-- Whether a value stands for a text that the library refuses as too large. -/
def Value.TooLarge (library : Regex.Library) : Value → Prop
  | .pattern _ _ => False
  | v => library.compile (library.escape v.display) = .error .tooLarge

section Searching

variable {library : Regex.Library} {pattern : Value}

/-- A text without flags is compiled as it is. -/
theorem searcherOf_unflagged (library : Regex.Library) (body : String) :
    searcherOf library body "" =
      (library.compile body).mapError fun _ => .badPattern body := by
  have hflags : patternFlags "".toList = .ok [] := rfl
  unfold searcherOf
  rw [hflags]
  simp only [List.isEmpty_nil, if_true]
  cases library.compile body <;> rfl

theorem compile_of_searcherOf {body flags : String} {searcher : Regex.Searcher}
    (h : searcherOf library body flags = .ok searcher) :
    ∃ source, library.compile source = .ok searcher := by
  unfold searcherOf at h
  split at h
  · cases h
  · dsimp only at h
    split at h
    · next compiled hcompiled =>
      cases h
      exact ⟨_, hcompiled⟩
    · cases h

/-- A value is a pattern, or it is searched for as the escaped text. -/
theorem searcherFor_cases (library : Regex.Library) (v : Value) :
    (∃ mark p, v = .pattern mark p) ∨
    ((v.TooLarge library ↔ library.compile (library.escape v.display) = .error .tooLarge) ∧
      searcherFor library v = (library.compile (library.escape v.display)).mapError
        fun _ => .badPattern (library.escape v.display)) := by
  cases v with
  | pattern mark p => exact .inl ⟨mark, p, rfl⟩
  | _ =>
    refine .inr ⟨Iff.rfl, ?_⟩
    unfold searcherFor
    dsimp only
    rw [searcherOf_unflagged]
    cases library.compile (library.escape _) <;> rfl

/-- What is searched for has matches that follow one another. -/
theorem searcherFor_inOrder (hlibrary : library.Lawful) (hpattern : pattern.IsRead library)
    {searcher : Regex.Searcher} (h : searcherFor library pattern = .ok searcher)
    (text : List Char) : Regex.InOrder text 0 (searcher.searchAll text) := by
  obtain ⟨mark, p, rfl⟩ | ⟨_, htext⟩ := searcherFor_cases library pattern
  · cases h
    obtain ⟨source, hcompiled⟩ := compile_of_searcherOf hpattern
    exact hlibrary.inOrder hcompiled text
  · rw [htext] at h
    cases hcompiled : library.compile (library.escape pattern.display) with
    | ok compiled =>
      rw [hcompiled] at h
      cases h
      exact hlibrary.inOrder hcompiled text
    | error refusal =>
      rw [hcompiled] at h
      cases h

/-- A text that is not too large can be searched for. -/
theorem searcherFor_ok (hlibrary : library.Lawful) (hfits : ¬pattern.TooLarge library) :
    ∃ searcher, searcherFor library pattern = .ok searcher := by
  obtain ⟨mark, p, rfl⟩ | ⟨hlarge, htext⟩ := searcherFor_cases library pattern
  · exact ⟨p.searcher, rfl⟩
  · rw [htext]
    cases hcompiled : library.compile (library.escape pattern.display) with
    | ok searcher => exact ⟨searcher, rfl⟩
    | error refusal =>
      cases refusal with
      | malformed => exact absurd hcompiled (hlibrary.escaped _)
      | tooLarge => exact absurd (hlarge.2 hcompiled) hfits

theorem searcherFor_tooLarge (hlarge : pattern.TooLarge library) :
    searcherFor library pattern = .error (.badPattern (library.escape pattern.display)) := by
  obtain ⟨mark, p, rfl⟩ | ⟨hiff, htext⟩ := searcherFor_cases library pattern
  · exact False.elim hlarge
  · rw [htext, hiff.1 hlarge]
    rfl

theorem replaceMatches_delivers {call : Call} {f : Value} {searcher : Regex.Searcher}
    (hlibrary : library.Lawful) (hpattern : pattern.IsRead library)
    (hsearcher : searcherFor library pattern = .ok searcher) (hf : f.isCallable = true)
    (hcall : ∀ args (n : Machine), n.nesting.now = m.nesting.now →
      Delivers S n (argument args 0) 1 (call f args n)) (text : List Char) (all : Bool) :
    ∃ count ≤ (searcher.searchAll text).length,
      Delivers S m (textOf text) count (replaceMatches library call text pattern f all m) := by
  have hall := searcherFor_inOrder hlibrary hpattern hsearcher text
  have hdelivers : ∀ found, Regex.InOrder text 0 found →
      Delivers S m (textOf text) found.length
        ((textOf <$> replaceFrom call searcher text f 0 [] found) m) := by
    intro found hfound
    have hstart : Delivers S m text found.length
        (replaceFrom call searcher text f (byteOffset text 0) [] found m) :=
      replaceFrom_delivers hf hcall searcher text found rfl (Nat.zero_le _) hfound rfl
    exact hstart.map textOf
  unfold replaceMatches
  rw [hsearcher]
  cases all with
  | true => exact ⟨_, Nat.le_refl _, hdelivers _ hall⟩
  | false => exact ⟨_, List.length_take_le' 1 _, hdelivers _ (hall.take 1)⟩

end Searching

/-- The method `name` of the text `s`, called with a pattern and the function `x => x`. -/
def replaceEcho (library : Regex.Library) (S : Setting) (s name : String) (pattern : Value)
    (x : String) (mark scope source : Nat) : Run Value := fun m =>
  method library S.limits (Eval.call S (Eval.within S m.nesting)) (.text s) name
    [pattern, echo x mark scope source] m

section Echoes

variable (library : Regex.Library) (S : Setting) (m : Machine) (s : String) {name : String}
  (hname : name = "replace" ∨ name = "replaceAll") (x : String) (mark scope source : Nat)
include hname

theorem replaceEcho_eq (pattern : Value) :
    ∃ all, replaceEcho library S s name pattern x mark scope source m =
      replaceMatches library (Eval.call S (Eval.within S m.nesting)) s.toList pattern
        (echo x mark scope source) all m := by
  obtain rfl | rfl := hname
  · exact ⟨isGlobalPattern pattern, rfl⟩
  · exact ⟨true, rfl⟩

variable {library} {pattern : Value}

/-- A text that is too large to search for makes the call fail, and nothing changes. -/
theorem replaceEcho_tooLarge (hlarge : pattern.TooLarge library) :
    replaceEcho library S s name pattern x mark scope source m =
      .error (.mistyped (.badPattern (library.escape pattern.display))) m := by
  obtain ⟨all, hcall⟩ := replaceEcho_eq library S m s hname x mark scope source pattern
  rw [hcall]
  unfold replaceMatches
  rw [searcherFor_tooLarge hlarge]
  rfl

theorem replaceEcho_delivers (hlibrary : library.Lawful) (hpattern : pattern.IsRead library)
    {searcher : Regex.Searcher} (hsearcher : searcherFor library pattern = .ok searcher) :
    ∃ count ≤ (searcher.searchAll s.toList).length,
      Delivers S m (.text s) count
        (replaceEcho library S s name pattern x mark scope source m) := by
  have hself : textOf s.toList = .text s := congrArg Value.text String.ofList_toList
  have hdelivers := replaceMatches_delivers (S := S) (m := m) (f := echo x mark scope source)
    hlibrary hpattern hsearcher rfl
    (fun args n hn => call_echo_delivers x mark scope source args hn) s.toList
  obtain ⟨all, hcall⟩ := replaceEcho_eq library S m s hname x mark scope source pattern
  rw [hself] at hdelivers
  rw [hcall]
  exact hdelivers all

end Echoes

/-- Replacing the matches of a pattern by what `x => x` gives for each leaves a text as it is,
unless a limit stops a call on the way or the library refuses a text to search for as too large,
which then is the error of the call. -/
theorem replace_echo {library : Regex.Library} (hlibrary : library.Lawful) (S : Setting)
    (m : Machine) (s : String) {name : String} (hname : name = "replace" ∨ name = "replaceAll")
    {pattern : Value} (hpattern : pattern.IsRead library) (x : String) (mark scope source : Nat) :
    (¬pattern.TooLarge library → ∃ searcher, searcherFor library pattern = .ok searcher ∧
      ∃ count ≤ (searcher.searchAll s.toList).length,
        Delivers S m (.text s) count
          (replaceEcho library S s name pattern x mark scope source m)) ∧
    (pattern.TooLarge library →
      replaceEcho library S s name pattern x mark scope source m =
        .error (.mistyped (.badPattern (library.escape pattern.display))) m) := by
  constructor
  · intro hfits
    obtain ⟨searcher, hsearcher⟩ := searcherFor_ok hlibrary hfits
    exact ⟨searcher, hsearcher,
      replaceEcho_delivers S m s hname x mark scope source hlibrary hpattern hsearcher⟩
  · exact replaceEcho_tooLarge S m s hname x mark scope source

/-- Stars match the empty text between any two characters, and are replaced there as well. -/
theorem replace_echo_stars :
    ∃ searcher, searcherOf Regex.engine "a*" "gi" = .ok searcher ∧
      ∃ n, replaceEcho Regex.engine {} "bAab" "replace"
        (.pattern 0 ⟨"a*", "gi", searcher, 0⟩) "m" 0 0 0 { heap := {} } =
          .ok (.text "bAab") n := by
  have hread : (searcherOf Regex.engine "a*" "gi").isOk = true := by decide
  cases hsearcher : searcherOf Regex.engine "a*" "gi" with
  | error fault => rw [hsearcher] at hread; cases hread
  | ok searcher =>
    refine ⟨searcher, rfl, ?_⟩
    let pattern : Value := .pattern 0 ⟨"a*", "gi", searcher, 0⟩
    have hpattern : pattern.IsRead Regex.engine := hsearcher
    obtain ⟨found, hfound, count, hcount, hdelivers⟩ :=
      (replace_echo Regex.lawful_engine {} { heap := {} } "bAab" (.inl rfl) hpattern "m" 0 0 0).1
        fun hlarge => hlarge
    cases hfound
    obtain ⟨source, hcompiled⟩ := compile_of_searcherOf hsearcher
    obtain ⟨regex, rfl⟩ := Regex.ofRegex_of_compile hcompiled
    have hfew : count ≤ 6 := Nat.le_trans hcount (Regex.Prepared.length_searchAll_le _ _)
    exact hdelivers.eq_ok (by show 0 + count ≤ 100000; omega) (by decide) (by decide)

/-- A text of 655360 letters is too large to be searched for, so that the call is an error. -/
theorem not_replace_echo_longPattern :
    ¬∀ (library : Regex.Library), library.Lawful → ∀ (S : Setting) (m : Machine)
      (s name : String), name = "replace" ∨ name = "replaceAll" → ∀ pattern : Value,
        pattern.IsRead library → ∀ (x : String) (mark scope source : Nat),
          ∃ count, Delivers S m (.text s) count
            (replaceEcho library S s name pattern x mark scope source m) := by
  intro hall
  let long : Value := .text (String.ofList (List.replicate 655360 'a'))
  have hlarge : long.TooLarge Regex.engine := by
    refine Regex.compile_escape_tooLarge ?_
    show Regex.maxWeight < byteLength (String.ofList (List.replicate 655360 'a')).toList
    rw [String.toList_ofList, byteLength_replicate]
    decide
  obtain ⟨count, hdelivers⟩ := hall Regex.engine Regex.lawful_engine {} { heap := {} } "abc"
    "replace" (.inl rfl) long trivial "m" 0 0 0
  rw [replaceEcho_tooLarge {} { heap := {} } "abc" (.inl rfl) "m" 0 0 0 hlarge] at hdelivers
  -- a type fault is none of the limits
  cases hdelivers with
  | limit he => exact he

end TraceViewer.Snippet
