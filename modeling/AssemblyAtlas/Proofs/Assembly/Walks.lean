import AssemblyAtlas.Proofs.Assembly.Ascent
import AssemblyAtlas.Proofs.Assembly.Reached

/-!
# Walks along enclosing types

From a type the way leads to the type that it stands in, from there to the next, and so on. Two
loops go this way and keep the tokens that they have seen. The one collects the types that it comes
to, and looks a token up among those it has seen before all else; the other only asks for the last
type, and looks a token up before it leaves the type. Both end the same way, and soon.

* `Module.IsWalk` is a walk to the outermost type, as a list in which no token comes twice;
* `Progress.after` goes a number of steps through a loop;
* `Module.after_seekStep` compares the two loops, step by step;
* `Module.walks_agree` says that the loops find what `typePath?` and `outermost?` give, for any
  enclosing types whatever.
-/

namespace AssemblyAtlas
namespace Assembly

/-! ## Loops -/

/-- What a step of a loop leads to. -/
inductive Progress (State Result : Type) where
  | going (state : State)
  | ended (result : Result)

namespace Progress

variable {State Result Other Answer : Type}

/-- Where a loop is after a number of further steps, or where it has ended within them. -/
def after (step : State → Progress State Result) :
    Nat → Progress State Result → Progress State Result
  | _, ended result => ended result
  | 0, going state => going state
  | count + 1, going state => after step count (step state)

/-- Tells less about the states of a loop, and something else about its result. -/
def map (view : State → Other) (answer : Result → Answer) :
    Progress State Result → Progress Other Answer
  | going state => going (view state)
  | ended result => ended (answer result)

@[simp] theorem after_ended
    (step : State → Progress State Result)
    (count : Nat)
    (result : Result) :
    after step count (ended result) = ended result := by
  cases count <;> rfl

@[simp] theorem after_succ_going
    (step : State → Progress State Result)
    (count : Nat)
    (state : State) :
    after step (count + 1) (going state) = after step count (step state) := rfl

/-- A loop that takes the steps of another one, as far as they can be seen, is always where the
other one is. It may do otherwise in states that the other one never comes to. -/
theorem after_map
    {step : State → Progress State Result}
    {seen : Other → Progress Other Answer}
    {view : State → Other}
    {answer : Result → Answer}
    {Comes : State → Prop}
    (same : ∀ state, Comes state → seen (view state) = (step state).map view answer)
    (kept : ∀ state next, Comes state → step state = going next → Comes next)
    (count : Nat)
    {progress : Progress State Result}
    (comes : ∀ state, progress = going state → Comes state) :
    after seen count (progress.map view answer) = (after step count progress).map view answer := by
  induction count generalizing progress with
  | zero => cases progress <;> rfl
  | succ count ih =>
      cases progress with
      | ended result => rfl
      | going state =>
          have here := comes state rfl
          rw [map, after_succ_going, after_succ_going, same state here]
          exact ih fun next stepped => kept state next here stepped

end Progress

open Progress

namespace Module

/-! ## Walks -/

/-- The enclosing type of the first type is there, and it is the second one. -/
def StandsIn (module : Module) (inner outer : TypeDefinition) : Prop :=
  ∃ parent, inner.enclosing = some parent ∧ module.type? parent = some outer

/-- A walk from the type with a token to the outermost type: each type stands in the next one, the
last one stands in none, and no token comes twice. -/
structure IsWalk (module : Module) (token : Token) (walk : List TypeDefinition) : Prop where
  first : ∃ type, module.type? token = some type ∧ walk.head? = some type
  steps : walk.IsChain module.StandsIn
  last : ∃ type, walk.getLast? = some type ∧ type.enclosing = none
  apart : (walk.map (·.token)).Nodup

variable {module : Module}

/-- The types of a walk, the last one first, are the way up. -/
theorem ascends_of_isChain
    {type : TypeDefinition}
    {rest : List TypeDefinition}
    (steps : (type :: rest).IsChain module.StandsIn)
    (last : ∃ top, (type :: rest).getLast? = some top ∧ top.enclosing = none) :
    module.Ascends type (type :: rest).reverse := by
  induction rest generalizing type with
  | nil =>
      obtain ⟨top, isTop, outermost⟩ := last
      obtain rfl : type = top := Option.some.inj isTop
      exact .outermost outermost
  | cons outer rest ih =>
      obtain ⟨⟨parent, around, known⟩, later⟩ := List.isChain_cons_cons.1 steps
      rw [List.getLast?_cons_cons] at last
      rw [List.reverse_cons]
      exact .nested around known (ih later last)

/-- The way up is a walk, the other way around. -/
theorem Ascends.isWalk_reverse
    {type : TypeDefinition}
    {path : List TypeDefinition}
    (ascends : module.Ascends type path)
    {token : Token}
    (known : module.type? token = some type) :
    module.IsWalk token path.reverse := by
  have apart := ascends.nodup_tokens (TypeTable.mem_of_find? known)
  obtain ⟨front, whole⟩ := ascends.exists_append
  refine ⟨⟨type, known, by simp [whole]⟩, ?steps, ?last, ?apart⟩
  case steps =>
    clear known apart front whole token
    induction ascends with
    | outermost _ => exact .singleton _
    | @nested type outer parent path around known above ih =>
        obtain ⟨front, rfl⟩ := above.exists_append
        rw [List.reverse_append, List.reverse_singleton, List.singleton_append] at ih
        rw [List.reverse_append, List.reverse_append, List.reverse_singleton,
          List.reverse_singleton]
        exact List.isChain_cons_cons.2 ⟨⟨parent, around, known⟩, ih⟩
  case last =>
    clear known apart front whole token
    induction ascends with
    | outermost top => exact ⟨_, rfl, top⟩
    | nested around known above ih =>
        obtain ⟨top, isTop, outermost⟩ := ih
        refine ⟨top, ?_, outermost⟩
        rw [List.getLast?_reverse] at isTop ⊢
        rw [List.head?_append, isTop, Option.some_or]
  case apart => rwa [List.map_reverse, List.nodup_reverse]

/-- Walks are the ways up that a token has, the other way around. -/
theorem isWalk_iff
    {token : Token}
    {walk : List TypeDefinition} :
    module.IsWalk token walk
      ↔ ∃ type, module.type? token = some type ∧ module.Ascends type walk.reverse := by
  constructor
  · intro isWalk
    obtain ⟨type, known, first⟩ := isWalk.first
    obtain ⟨rest, rfl⟩ := List.head?_eq_some_iff.1 first
    exact ⟨type, known, ascends_of_isChain isWalk.steps isWalk.last⟩
  · rintro ⟨type, known, ascends⟩
    rw [← walk.reverse_reverse]
    exact ascends.isWalk_reverse known

/-! ## The loop that collects types -/

/-- What the loop knows that collects types. -/
structure Collecting where
  seen : List Token
  /-- The types that it went up from. -/
  chain : List TypeDefinition
  /-- The type that it has come to. -/
  current : TypeDefinition

/-- A token that was seen ends the loop, and so does a missing type. The outermost type is the last
one to be collected. -/
def collectStep
    (module : Module)
    (state : Collecting) :
    Progress Collecting (Option (List TypeDefinition)) :=
  if state.current.token ∈ state.seen then
    .ended none
  else
    let chain := state.chain ++ [state.current]
    match state.current.enclosing with
    | none => .ended (some chain.reverse)
    | some parent =>
        match module.type? parent with
        | none => .ended none
        | some outer => .going ⟨state.current.token :: state.seen, chain, outer⟩

/-- The start of the loop. -/
def collectFrom (module : Module) (token : Token) :
    Progress Collecting (Option (List TypeDefinition)) :=
  match module.type? token with
  | none => .ended none
  | some type => .going ⟨[], [], type⟩

/-- From a type with a way up that was not seen before, the loop collects this way. -/
theorem after_collectStep_of_ascends
    {type : TypeDefinition}
    {path chain : List TypeDefinition}
    (ascends : module.Ascends type path)
    {seen : List Token}
    (apart : (path.map (·.token) ++ seen).Nodup)
    {count : Nat}
    (enough : path.length ≤ count) :
    after module.collectStep count (.going ⟨seen, chain, type⟩)
      = .ended (some (path ++ chain.reverse)) := by
  obtain ⟨front, whole⟩ := ascends.exists_append
  have fresh : type.token ∉ seen := fun isSeen =>
    (List.nodup_append.1 apart).2.2 type.token (by simp [whole]) type.token isSeen rfl
  clear front whole
  induction ascends generalizing seen chain count with
  | outermost top =>
      obtain ⟨fewer, rfl⟩ : ∃ fewer, count = fewer + 1 := Nat.exists_eq_add_one.2 enough
      rw [after_succ_going, collectStep, if_neg fresh]
      simp only [top, after_ended, List.reverse_append, List.reverse_singleton]
  | @nested type outer parent path around known above ih =>
      rw [List.length_append, List.length_singleton] at enough
      obtain ⟨fewer, rfl⟩ : ∃ fewer, count = fewer + 1 :=
        Nat.exists_eq_add_one.2 (Nat.lt_of_lt_of_le (Nat.succ_pos _) enough)
      rw [List.map_append, List.map_singleton, List.append_assoc, List.singleton_append] at apart
      obtain ⟨front, whole⟩ := above.exists_append
      have later : outer.token ∉ type.token :: seen := fun isSeen =>
        (List.nodup_append.1 apart).2.2 outer.token (by simp [whole]) outer.token isSeen rfl
      rw [after_succ_going, collectStep, if_neg fresh]
      simp only [around, known]
      rw [ih apart (Nat.le_of_succ_le_succ enough) later, List.reverse_append, List.append_assoc]
      rfl

/-- From a type without a way up the loop ends with nothing. While it goes on it sees a further
token of the module each time, and there are not more than these. -/
theorem after_collectStep_of_not_ascends
    {type : TypeDefinition}
    (lost : ∀ path, ¬module.Ascends type path)
    (here : module.type? type.token = some type)
    {seen : List Token}
    (apart : seen.Nodup)
    (known : ∀ token ∈ seen, (module.type? token).isSome)
    {chain : List TypeDefinition}
    {count : Nat}
    (enough : module.types.size < seen.length + count) :
    after module.collectStep count (.going ⟨seen, chain, type⟩) = .ended none := by
  induction count generalizing type seen chain with
  | zero => exact absurd (length_le_size apart known) (Nat.not_le.2 enough)
  | succ count ih =>
      rw [after_succ_going, collectStep]
      split
      · exact after_ended _ _ _
      · next fresh =>
          cases around : type.enclosing with
          | none => exact absurd (.outermost around) (lost [type])
          | some parent =>
              cases found : module.type? parent with
              | none => simp [found]
              | some outer =>
                  simp only [found]
                  refine ih (fun path above => lost _ (.nested around found above)) ?_
                    (List.nodup_cons.2 ⟨fresh, apart⟩) ?_ ?_
                  · rw [TypeTable.token_of_find? found, found]
                  · exact List.forall_mem_cons.2 ⟨by rw [here, Option.isSome_some], known⟩
                  · change module.types.size < (seen.length + 1) + count
                    omega

/-- One step more than there are types is always enough to find the path of a type. -/
theorem after_collectFrom (module : Module) (token : Token) :
    after module.collectStep (module.types.size + 1) (module.collectFrom token)
      = .ended (module.typePath? token) := by
  rw [collectFrom]
  cases known : module.type? token with
  | none => simp [typePath?, known]
  | some type =>
      have isEntry := TypeTable.mem_of_find? known
      by_cases climbs : ∃ path, module.Ascends type path
      · obtain ⟨path, ascends⟩ := climbs
        have short := ascends.length_le_size isEntry
        have apart := ascends.nodup_tokens isEntry
        rw [typePath?_eq_some_iff.2 ⟨type, known, ascends⟩]
        refine (after_collectStep_of_ascends ascends ?_ (Nat.le_succ_of_le short)).trans ?_
        · rwa [List.append_nil]
        · rw [List.reverse_nil, List.append_nil]
      · have none : module.typePath? token = none := by
          rw [Option.eq_none_iff_forall_ne_some]
          intro path found
          obtain ⟨other, alsoKnown, ascends⟩ := typePath?_eq_some_iff.1 found
          obtain rfl := Option.some.inj (alsoKnown.symm.trans known)
          exact climbs ⟨path, ascends⟩
        rw [none]
        exact after_collectStep_of_not_ascends (not_exists.1 climbs) (type?_token isEntry)
          List.nodup_nil (fun _ isSeen => absurd isSeen List.not_mem_nil)
          (by rw [List.length_nil]; omega)

/-! ## The loop that seeks the last type -/

/-- What the loop knows that seeks the outermost type. -/
structure Seeking where
  seen : List Token
  /-- The type that it has come to. -/
  current : TypeDefinition

/-- The outermost type ends the loop, whether it was seen or not. From any other type the loop goes
up, unless the type was seen. -/
def seekStep (module : Module) (state : Seeking) : Progress Seeking (Option Token) :=
  match state.current.enclosing with
  | none => .ended (some state.current.token)
  | some parent =>
      if state.current.token ∈ state.seen then
        .ended none
      else
        match module.type? parent with
        | none => .ended none
        | some outer => .going ⟨state.current.token :: state.seen, outer⟩

/-- The start of the loop. -/
def seekFrom (module : Module) (token : Token) : Progress Seeking (Option Token) :=
  match module.type? token with
  | none => .ended none
  | some type => .going ⟨[], type⟩

/-- What the one loop knows, of what the other one does. -/
def Collecting.seeking (state : Collecting) : Seeking :=
  ⟨state.seen, state.current⟩

/-- The token of the first type of a path. -/
def outermostOf (path : Option (List TypeDefinition)) : Option Token :=
  path.bind (·.head?.map (·.token))

/-- The loop has come to a type of the module, and all that it has seen are tokens of types that
stand in others. -/
structure Climbed (module : Module) (state : Collecting) : Prop where
  here : module.type? state.current.token = some state.current
  left : ∀ token ∈ state.seen, ∃ type, module.type? token = some type ∧ type.enclosing ≠ none

/-- A type that was seen is not the outermost one, so it does not matter which is asked first. -/
theorem seekStep_seeking
    {state : Collecting}
    (climbed : module.Climbed state) :
    module.seekStep state.seeking
      = (module.collectStep state).map Collecting.seeking outermostOf := by
  rw [seekStep, collectStep, Collecting.seeking]
  cases around : state.current.enclosing with
  | none =>
      have fresh : state.current.token ∉ state.seen := fun isSeen => by
        obtain ⟨type, known, nested⟩ := climbed.left _ isSeen
        obtain rfl := Option.some.inj (known.symm.trans climbed.here)
        exact nested around
      simp [if_neg fresh, Progress.map, outermostOf]
  | some parent =>
      by_cases isSeen : state.current.token ∈ state.seen
      · simp [isSeen, Progress.map, outermostOf]
      · cases found : module.type? parent <;>
          simp [isSeen, found, Progress.map, outermostOf, Collecting.seeking]

theorem Climbed.step
    {state next : Collecting}
    (climbed : module.Climbed state)
    (stepped : module.collectStep state = .going next) :
    module.Climbed next := by
  rw [collectStep] at stepped
  split at stepped
  · cases stepped
  · cases around : state.current.enclosing with
    | none => simp [around] at stepped
    | some parent =>
        cases found : module.type? parent with
        | none => simp [around, found] at stepped
        | some outer =>
            simp only [around, found, Progress.going.injEq] at stepped
            subst stepped
            refine ⟨by rw [TypeTable.token_of_find? found, found], ?_⟩
            refine List.forall_mem_cons.2 ⟨⟨_, climbed.here, ?_⟩, climbed.left⟩
            rw [around]
            exact Option.some_ne_none parent

/-- After each number of steps the two loops are at the same type, or have ended alike. -/
theorem after_seekStep (module : Module) (token : Token) (count : Nat) :
    after module.seekStep count (module.seekFrom token)
      = (after module.collectStep count (module.collectFrom token)).map
          Collecting.seeking outermostOf := by
  have start : module.seekFrom token
      = (module.collectFrom token).map Collecting.seeking outermostOf := by
    rw [seekFrom, collectFrom]
    cases module.type? token <;> rfl
  rw [start]
  refine after_map (fun _ (climbed : module.Climbed _) => seekStep_seeking climbed)
    (fun _ _ climbed => climbed.step) count fun state isStart => ?_
  rw [collectFrom] at isStart
  split at isStart
  · cases isStart
  · next type known =>
      obtain rfl := Progress.going.inj isStart
      exact ⟨by rw [TypeTable.token_of_find? known, known], fun _ isSeen => nomatch isSeen⟩

/-! ## Both of them -/

/-- A type has a path exactly if there is a walk from it to an outermost type, and then the path is
this walk the other way around and starts with the outermost type. If there is none, neither is
found. Both loops end with these answers, after at most one step more than there are types. -/
theorem walks_agree (module : Module) (token : Token) :
    (∀ path, module.typePath? token = some path
        ↔ ∃ walk, module.IsWalk token walk ∧ path = walk.reverse)
      ∧ (∀ path, module.typePath? token = some path →
        ∃ outer, path.head? = some outer ∧ module.outermost? token = some outer.token)
      ∧ ((¬∃ walk, module.IsWalk token walk) →
        module.typePath? token = none ∧ module.outermost? token = none)
      ∧ after module.collectStep (module.types.size + 1) (module.collectFrom token)
        = .ended (module.typePath? token)
      ∧ after module.seekStep (module.types.size + 1) (module.seekFrom token)
        = .ended (module.outermost? token) := by
  have path_iff (path : List TypeDefinition) : module.typePath? token = some path
      ↔ ∃ walk, module.IsWalk token walk ∧ path = walk.reverse := by
    rw [typePath?_eq_some_iff, ← path.reverse_reverse, ← isWalk_iff]
    constructor
    · exact fun isWalk => ⟨_, isWalk, rfl⟩
    · rintro ⟨walk, isWalk, same⟩
      rwa [List.reverse_injective same]
  refine ⟨path_iff, fun path found => ?_, fun lost => ?_, after_collectFrom module token, ?_⟩
  · obtain ⟨type, -, ascends⟩ := typePath?_eq_some_iff.1 found
    obtain ⟨outer, rest, rfl⟩ := List.exists_cons_of_ne_nil ascends.ne_nil
    exact ⟨outer, rfl, by rw [outermost?_eq, found]; rfl⟩
  · have none : module.typePath? token = none := by
      rw [Option.eq_none_iff_forall_ne_some]
      intro path found
      obtain ⟨walk, isWalk, -⟩ := (path_iff path).1 found
      exact lost ⟨walk, isWalk⟩
    exact ⟨none, by rw [outermost?_eq, none]; rfl⟩
  · rw [after_seekStep, after_collectFrom, outermost?_eq]
    rfl

/-- A module with one type, which stands in itself. -/
def selfModule : Module :=
  .ofTypes [
    { TypeDefinition.bare (.ofRow .typeDefinition 2) "A" "Ring" with
      enclosing := some (.ofRow .typeDefinition 2) }]

-- The second step, one more than there are types, is needed to see that the type was seen before.
example :
    let start := selfModule.seekFrom (.ofRow .typeDefinition 2)
    after selfModule.seekStep 1 start ≠ .ended none
      ∧ after selfModule.seekStep 2 start = .ended none :=
  ⟨nofun, rfl⟩

end Module

end Assembly
end AssemblyAtlas
