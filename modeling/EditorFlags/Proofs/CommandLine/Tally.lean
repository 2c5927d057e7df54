import EditorFlags.Proofs.CommandLine.Mention
import Mathlib.Data.List.Count
import Mathlib.Data.List.Induction

/-!
# What mentions come to

What is given on a level depends on how often its switches are mentioned and with which values,
not on the order (`takeAll_nothing_iff`). A parameter is given the one value it is mentioned
with, and the flag for more output as often as it is mentioned, up to a limit.
-/

namespace EditorFlags.CommandLine

/-- The value that a mention has for a parameter. -/
def Mention.valueFor? (parameter : Parameter) : Mention → Option Bytes
  | .flag _ => none
  | .value other bytes => if other = parameter then some bytes else none

/-- The values that a parameter is mentioned with. -/
def valuesFor (parameter : Parameter) (mentions : List Mention) : List Bytes :=
  mentions.filterMap (Mention.valueFor? parameter)

/-- That mentions can all be given on one level. -/
structure Consistent (mentions : List Mention) : Prop where
  /-- No parameter is mentioned twice. -/
  single : ∀ parameter, (valuesFor parameter mentions).length ≤ 1
  /-- Each has a value that it can have. -/
  admitted : ∀ parameter, ∀ value ∈ valuesFor parameter mentions, Given.Admits parameter value
  /-- Nor is the flag for printing mentioned twice. -/
  printsOnce : mentions.count (.flag .stdout) ≤ 1
  /-- Help is not asked for. -/
  noHelp : .flag .help ∉ mentions

/-- What mentions come to. -/
def Given.ofMentions (mentions : List Mention) : Given where
  value? := fun parameter => (valuesFor parameter mentions).head?
  verbose := min (mentions.count (.flag .verbose)) verboseLimit
  stdout := decide (.flag .stdout ∈ mentions)

variable {parameter other : Parameter} {mentions : List Mention}

/-! ## One more mention -/

@[simp] theorem valuesFor_nil : valuesFor parameter [] = [] := rfl

@[simp] theorem valuesFor_append (first second : List Mention) :
    valuesFor parameter (first ++ second) =
      valuesFor parameter first ++ valuesFor parameter second :=
  List.filterMap_append

@[simp] theorem valuesFor_flag (flag : Flag) : valuesFor parameter [.flag flag] = [] := rfl

theorem valuesFor_value (value : Bytes) :
    valuesFor parameter [.value other value] = if other = parameter then [value] else [] := by
  rw [valuesFor, List.filterMap_cons, Mention.valueFor?]
  split_ifs <;> rfl

theorem consistent_nil : Consistent [] := by
  constructor <;> simp

theorem Consistent.of_append {first second : List Mention}
    (consistent : Consistent (first ++ second)) : Consistent first := by
  obtain ⟨single, admitted, printsOnce, noHelp⟩ := consistent
  refine ⟨?_, ?_, ?_, ?_⟩
  · intro parameter
    have whole := single parameter
    rw [valuesFor_append, List.length_append] at whole
    omega
  · intro parameter value member
    exact admitted parameter value (by simp [member])
  · rw [List.count_append] at printsOnce
    omega
  · exact fun member => noHelp (List.mem_append_left second member)

theorem consistent_append_value_iff {value : Bytes} :
    Consistent (mentions ++ [.value other value]) ↔
      Consistent mentions ∧ valuesFor other mentions = [] ∧ Given.Admits other value := by
  constructor
  · intro consistent
    have single := consistent.single other
    have admitted := consistent.admitted other value
    rw [valuesFor_append, valuesFor_value, if_pos rfl] at single admitted
    rw [List.length_append, List.length_singleton] at single
    exact ⟨consistent.of_append, List.length_eq_zero_iff.mp (by omega), admitted (by simp)⟩
  · rintro ⟨⟨single, admitted, printsOnce, noHelp⟩, free, admits⟩
    refine ⟨?_, ?_, ?_, ?_⟩
    · intro parameter
      rw [valuesFor_append, valuesFor_value]
      split_ifs with own
      · rw [← own, free]
        exact Nat.le_refl 1
      · simpa using single parameter
    · intro parameter found member
      rw [valuesFor_append, valuesFor_value, List.mem_append] at member
      rcases member with before | last
      · exact admitted parameter found before
      · split_ifs at last with own
        · obtain rfl := List.mem_singleton.mp last
          exact own ▸ admits
        · cases last
    · rw [List.count_append]
      simpa using printsOnce
    · simpa using noHelp

theorem consistent_append_flag_iff {flag : Flag} :
    Consistent (mentions ++ [.flag flag]) ↔
      Consistent mentions ∧ flag ≠ .help ∧
        (flag = .stdout → mentions.count (.flag .stdout) = 0) := by
  constructor
  · intro consistent
    refine ⟨consistent.of_append, ?_, ?_⟩
    · rintro rfl
      exact consistent.noHelp (by simp)
    · rintro rfl
      have once := consistent.printsOnce
      rw [List.count_append, List.count_singleton_self] at once
      omega
  · rintro ⟨⟨single, admitted, printsOnce, noHelp⟩, notHelp, unraised⟩
    refine ⟨?_, ?_, ?_, ?_⟩
    · intro parameter
      simpa using single parameter
    · intro parameter
      simpa using admitted parameter
    · rw [List.count_append]
      by_cases prints : flag = .stdout
      · have none := unraised prints
        rw [prints, List.count_singleton_self]
        omega
      · simpa [prints] using printsOnce
    · simpa [Ne.symm notHelp] using noHelp

namespace Given

@[simp] theorem ofMentions_nil : ofMentions [] = nothing := rfl

theorem ofMentions_append_value (free : valuesFor other mentions = []) (value : Bytes) :
    ofMentions (mentions ++ [.value other value]) = (ofMentions mentions).set other value := by
  simp only [ofMentions, set, Given.mk.injEq]
  refine ⟨?_, by simp, by simp⟩
  funext parameter
  rw [valuesFor_append, valuesFor_value]
  by_cases own : parameter = other
  · rw [own, free, if_pos rfl, if_pos rfl]
    rfl
  · rw [if_neg (Ne.symm own), if_neg own, List.append_nil]

/-- What is mentioned last is taken in last. -/
theorem take_ofMentions_iff {mention : Mention} {given : Given} (consistent : Consistent mentions) :
    (ofMentions mentions).take mention = .ok given ↔
      Consistent (mentions ++ [mention]) ∧ given = ofMentions (mentions ++ [mention]) := by
  cases mention with
  | value parameter value =>
      have free : (ofMentions mentions).value? parameter = none ↔
          valuesFor parameter mentions = [] := List.head?_eq_none_iff
      rw [take, accept_eq_ok_iff, consistent_append_value_iff, free]
      constructor
      · rintro ⟨unset, admits, rfl⟩
        exact ⟨⟨consistent, unset, admits⟩, (ofMentions_append_value unset value).symm⟩
      · rintro ⟨⟨-, unset, admits⟩, rfl⟩
        exact ⟨unset, admits, ofMentions_append_value unset value⟩
  | flag flag =>
      rw [take, consistent_append_flag_iff]
      cases flag with
      | help => simp [raise]
      | verbose =>
          have counted : ofMentions (mentions ++ [.flag .verbose]) =
              { ofMentions mentions with
                verbose := min ((ofMentions mentions).verbose + 1) verboseLimit } := by
            simp only [ofMentions, Given.mk.injEq, List.count_append, List.count_singleton_self]
            refine ⟨by simp, by omega, by simp⟩
          simp [raise, consistent, counted, eq_comm]
      | stdout =>
          have unraised : (ofMentions mentions).stdout = false ↔
              mentions.count (.flag .stdout) = 0 := by
            rw [List.count_eq_zero]
            simp [ofMentions]
          have printing : ofMentions (mentions ++ [.flag .stdout]) =
              { ofMentions mentions with stdout := true } := by
            simp [ofMentions]
          rw [raise]
          split
          · next raised => simp [consistent, ← unraised, raised]
          · next notRaised => simp [consistent, ← unraised, notRaised, printing, eq_comm]

/-- **The order of the mentions does not matter.** They are given if no two of them exclude each
other, and come to their values and their numbers. -/
theorem takeAll_nothing_iff {given : Given} :
    nothing.takeAll mentions = .ok given ↔
      Consistent mentions ∧ given = ofMentions mentions := by
  induction mentions using List.reverseRecOn generalizing given with
  | nil => simp [takeAll, consistent_nil, eq_comm]
  | append_singleton before mention ih =>
      rw [takeAll_append, bind_eq_ok_iff]
      simp only [ih, takeAll_singleton]
      constructor
      · rintro ⟨_, ⟨consistent, rfl⟩, taken⟩
        exact (take_ofMentions_iff consistent).mp taken
      · intro whole
        have consistent := whole.1.of_append
        exact ⟨_, ⟨consistent, rfl⟩, (take_ofMentions_iff consistent).mpr whole⟩

end Given

/-! ## In any order -/

theorem valuesFor_perm {mentionsToo : List Mention} (perm : mentionsToo.Perm mentions)
    (single : (valuesFor parameter mentions).length ≤ 1) :
    valuesFor parameter mentionsToo = valuesFor parameter mentions := by
  have values : (valuesFor parameter mentionsToo).Perm (valuesFor parameter mentions) :=
    perm.filterMap _
  -- A list of one value at most has one order.
  match found : valuesFor parameter mentions with
  | [] => exact (found ▸ values).eq_nil
  | [value] => exact (found ▸ values).eq_singleton
  | _ :: _ :: _ => simp [found] at single

namespace Given

/-- Mentions that are given come to the same in any other order. -/
theorem takeAll_perm {mentionsToo : List Mention} {given : Given}
    (taken : nothing.takeAll mentions = .ok given) (perm : mentionsToo.Perm mentions) :
    nothing.takeAll mentionsToo = .ok given := by
  obtain ⟨consistent, rfl⟩ := takeAll_nothing_iff.mp taken
  have values (parameter : Parameter) :
      valuesFor parameter mentionsToo = valuesFor parameter mentions :=
    valuesFor_perm perm (consistent.single parameter)
  rw [takeAll_nothing_iff]
  refine ⟨⟨?_, ?_, ?_, ?_⟩, ?_⟩
  · intro parameter
    rw [values]
    exact consistent.single parameter
  · intro parameter
    rw [values]
    exact consistent.admitted parameter
  · rw [perm.count_eq]
    exact consistent.printsOnce
  · rw [perm.mem_iff]
    exact consistent.noHelp
  · simp only [ofMentions, values, perm.count_eq, perm.mem_iff]

/-- Mentions of all that is given. -/
def toMentions (given : Given) : List Mention :=
  Parameter.all.flatMap (fun parameter => (given.value? parameter).toList.map (.value parameter)) ++
    List.replicate given.verbose (.flag .verbose) ++
      if given.stdout then [.flag .stdout] else []

/-- That each parameter that is given has a value that it can have, and that the flag for more
output is raised no more often than makes a difference. -/
structure Sound (given : Given) : Prop where
  admitted : ∀ parameter, ∀ value ∈ given.value? parameter, Admits parameter value
  limited : given.verbose ≤ verboseLimit

theorem valuesFor_toMentions (given : Given) (parameter : Parameter) :
    valuesFor parameter given.toMentions = (given.value? parameter).toList := by
  have own : ∀ other, valuesFor parameter ((given.value? other).toList.map (.value other)) =
      if other = parameter then (given.value? other).toList else [] := by
    intro other
    cases given.value? other with
    | none => simp
    | some value => exact valuesFor_value value
  have flags : valuesFor parameter (List.replicate given.verbose (.flag .verbose)) = [] := by
    rw [valuesFor, List.filterMap_replicate_of_none rfl]
  have printing : valuesFor parameter (if given.stdout then [.flag .stdout] else []) = [] := by
    split <;> rfl
  rw [toMentions, valuesFor_append, valuesFor_append, flags, printing]
  simp only [Parameter.all, List.flatMap_cons, List.flatMap_nil, valuesFor_append, own,
    valuesFor_nil]
  cases parameter <;> simp

theorem count_flag_toMentions (given : Given) (flag : Flag) :
    given.toMentions.count (.flag flag) =
      (if flag = .verbose then given.verbose else 0) +
        if flag = .stdout ∧ given.stdout = true then 1 else 0 := by
  have values : (Parameter.all.flatMap fun parameter =>
      (given.value? parameter).toList.map (Mention.value parameter)).count (.flag flag) = 0 := by
    rw [List.count_eq_zero]
    simp
  rw [toMentions, List.count_append, List.count_append, values, List.count_replicate]
  cases flag <;> cases given.stdout <;> simp

theorem Sound.consistent {given : Given} (sound : given.Sound) : Consistent given.toMentions := by
  refine ⟨?_, ?_, ?_, ?_⟩
  · intro parameter
    rw [valuesFor_toMentions]
    exact Option.length_toList_le
  · intro parameter value member
    rw [valuesFor_toMentions, Option.mem_toList] at member
    exact sound.admitted parameter value member
  · rw [count_flag_toMentions]
    cases given.stdout <;> simp
  · rw [← List.count_eq_zero, count_flag_toMentions]
    simp

theorem Sound.ofMentions_toMentions {given : Given} (sound : given.Sound) :
    ofMentions given.toMentions = given := by
  have printing : 0 < given.toMentions.count (.flag .stdout) ↔ given.stdout = true := by
    rw [count_flag_toMentions]
    cases given.stdout <;> simp
  have counted : given.toMentions.count (.flag .verbose) = given.verbose := by
    rw [count_flag_toMentions]
    simp
  simp only [ofMentions, valuesFor_toMentions, counted, Nat.min_eq_left sound.limited,
    ← List.count_pos_iff, printing]
  simp

/-- What is given is given by its mentions, in any order. -/
theorem Sound.takeAll_of_perm {given : Given} (sound : given.Sound) {order : List Mention}
    (perm : order.Perm given.toMentions) : nothing.takeAll order = .ok given := by
  refine takeAll_perm (takeAll_nothing_iff.mpr ?_) perm
  exact ⟨sound.consistent, sound.ofMentions_toMentions.symm⟩

end Given

end EditorFlags.CommandLine
