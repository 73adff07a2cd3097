import Mathlib.Data.Nat.Notation
import Mathlib.Logic.Basic
import Mathlib.Tactic.TypeStar

namespace Shell

/-- How a command ends: with a status, by leaving a loop, a function or the script, or without an
answer because the bound on a loop is used up. -/
inductive Ending where
  | status (code : ℕ)
  | brk
  | cont
  | ret (code : ℕ)
  | exit (code : ℕ)
  | lost
  deriving DecidableEq

/-- The exit status of a script whose last command ends so. -/
def Ending.code : Ending → Option ℕ
  | .status code => some code
  | .ret code => some code
  | .exit code => some code
  | .brk => some 0
  | .cont => some 0
  | .lost => none

end Shell

/-- A command of a shell. The flag tells whether a failure ends the script, as `set -e` has it
where the failure is not tested. -/
def Shell (σ : Type*) :=
  Bool → σ → Shell.Ending × σ

namespace Shell

variable {σ α : Type*}

def settle (errexit : Bool) (code : ℕ) : Ending :=
  if errexit = true ∧ code ≠ 0 then .exit code else .status code

def run (f : σ → ℕ × σ) : Shell σ :=
  fun errexit s => (settle errexit (f s).1, (f s).2)

def assign (f : σ → σ) : Shell σ :=
  fun _ s => (.status 0, f s)

/-- `break`, `continue`, `return n` and `exit n`. -/
def jump (r : Ending) : Shell σ :=
  fun _ s => (r, s)

/-- `return` and `exit`, with the value of a variable. -/
def leave (r : σ → Ending) : Shell σ :=
  fun _ s => (r s, s)

def skip : Shell σ :=
  jump (.status 0)

/-- `test`, on the variables of the script. -/
def test (p : σ → Bool) : Shell σ :=
  run fun s => (if p s then 0 else 1, s)

def seq (x y : Shell σ) : Shell σ :=
  fun errexit s =>
    match x errexit s with
    | (.status _, s) => y errexit s
    | r => r

def block : List (Shell σ) → Shell σ
  | [] => skip
  | [x] => x
  | x :: xs => seq x (block xs)

/-- `x && y` -/
def both (x y : Shell σ) : Shell σ :=
  fun errexit s =>
    match x false s with
    | (.status 0, s) => y errexit s
    | r => r

/-- `x || y` -/
def either (x y : Shell σ) : Shell σ :=
  fun errexit s =>
    match x false s with
    | (.status (_ + 1), s) => y errexit s
    | r => r

/-- `x | y`, without the status of `x`. -/
def pipe (x y : Shell σ) : Shell σ :=
  fun errexit s =>
    match x false s with
    | (.status _, s) => y errexit s
    | r => r

/-- `! x` -/
def neg (x : Shell σ) : Shell σ :=
  fun _ s =>
    match x false s with
    | (.status 0, s) => (.status 1, s)
    | (.status (_ + 1), s) => (.status 0, s)
    | r => r

def ifElse (c x y : Shell σ) : Shell σ :=
  fun errexit s =>
    match c false s with
    | (.status 0, s) => x errexit s
    | (.status (_ + 1), s) => y errexit s
    | r => r

/-- A `for` loop over the rest of its words, after a body that ended with `code`. -/
def forFrom (body : α → Shell σ) : ℕ → List α → Shell σ
  | code, [] => jump (.status code)
  | _, a :: as => fun errexit s =>
    match body a errexit s with
    | (.status code, s) => forFrom body code as errexit s
    | (.cont, s) => forFrom body 0 as errexit s
    | (.brk, s) => (.status 0, s)
    | r => r

def forEach (words : List α) (body : α → Shell σ) : Shell σ :=
  forFrom body 0 words

/-- A `while` loop that makes less than `fuel` turns. -/
def whileFrom (c body : Shell σ) : ℕ → ℕ → Shell σ
  | 0, _ => jump .lost
  | fuel + 1, code => fun errexit s =>
    match c false s with
    | (.status 0, s) =>
      match body errexit s with
      | (.status code, s) => whileFrom c body fuel code errexit s
      | (.cont, s) => whileFrom c body fuel 0 errexit s
      | (.brk, s) => (.status 0, s)
      | r => r
    | (.status (_ + 1), s) => (.status code, s)
    | r => r

def loop (fuel : ℕ) (c body : Shell σ) : Shell σ :=
  whileFrom c body fuel 0

def func (body : Shell σ) : Shell σ :=
  fun errexit s =>
    match body errexit s with
    | (.status code, s) => (settle errexit code, s)
    | (.ret code, s) => (settle errexit code, s)
    | r => r

/-- How a script ends after the action of its `trap`, which was told `code`. -/
def Ending.afterTrap (code : ℕ) : Ending → Ending
  | .exit code => .exit code
  | .lost => .lost
  | _ => .exit code

/-- A script with `trap finish EXIT`, where `finish` is told the status. -/
def trapped (finish : ℕ → Shell σ) (main : Shell σ) : Shell σ :=
  fun errexit s =>
    let (r, s) := main errexit s
    match r.code with
    | none => (.lost, s)
    | some code =>
      let (r, s) := finish code errexit s
      (r.afterTrap code, s)

/-- What holds after a command. -/
def wp (x : Shell σ) (errexit : Bool) (Q : Ending → σ → Prop) (s : σ) : Prop :=
  Q (x errexit s).1 (x errexit s).2

section Conditions

variable {x y c body : Shell σ} {errexit : Bool} {Q R : Ending → σ → Prop} {s : σ}

theorem wp_mono (h : wp x errexit Q s) (himp : ∀ r s, Q r s → R r s) : wp x errexit R s :=
  himp _ _ h

@[simp] theorem wp_run {f : σ → ℕ × σ} :
    wp (run f) errexit Q s ↔ Q (settle errexit (f s).1) (f s).2 := Iff.rfl

@[simp] theorem wp_assign {f : σ → σ} : wp (assign f) errexit Q s ↔ Q (.status 0) (f s) := Iff.rfl

@[simp] theorem wp_jump {r : Ending} : wp (jump r) errexit Q s ↔ Q r s := Iff.rfl

@[simp] theorem wp_leave {r : σ → Ending} : wp (leave r) errexit Q s ↔ Q (r s) s := Iff.rfl

@[simp] theorem wp_skip : wp skip errexit Q s ↔ Q (.status 0) s := Iff.rfl

@[simp] theorem wp_test {p : σ → Bool} :
    wp (test p) errexit Q s ↔ Q (settle errexit (if p s then 0 else 1)) s := Iff.rfl

/-- What a command that ends with a status leaves to `N`, and every other ending to `Q`. -/
def Ending.go (Q : Ending → σ → Prop) (N : ℕ → σ → Prop) : Ending → σ → Prop
  | .status code, s => N code s
  | r, s => Q r s

@[simp] theorem go_status {N : ℕ → σ → Prop} {code : ℕ} :
    Ending.go Q N (.status code) s ↔ N code s := Iff.rfl

@[simp] theorem go_cont {N : ℕ → σ → Prop} : Ending.go Q N .cont s ↔ Q .cont s := Iff.rfl

theorem wp_seq : wp (seq x y) errexit Q s ↔
    wp x errexit (Ending.go Q fun _ => wp y errexit Q) s := by
  unfold wp seq
  split
  next code s' h => rw [h]; rfl
  next h =>
    rcases hx : x errexit s with ⟨r, s'⟩
    cases r with
    | status code => exact absurd hx (h code s')
    | _ => rfl

theorem wp_block_cons {xs : List (Shell σ)} :
    wp (block (x :: y :: xs)) errexit Q s ↔
      wp x errexit (Ending.go Q fun _ => wp (block (y :: xs)) errexit Q) s :=
  wp_seq

theorem wp_both : wp (both x y) errexit Q s ↔
    wp x false (Ending.go Q fun code s =>
      if code = 0 then wp y errexit Q s else Q (.status code) s) s := by
  unfold wp both
  rcases x false s with ⟨r, s'⟩
  cases r with
  | status code => cases code <;> rfl
  | _ => rfl

theorem wp_either : wp (either x y) errexit Q s ↔
    wp x false (Ending.go Q fun code s =>
      if code = 0 then Q (.status 0) s else wp y errexit Q s) s := by
  unfold wp either
  rcases x false s with ⟨r, s'⟩
  cases r with
  | status code => cases code <;> rfl
  | _ => rfl

theorem wp_pipe : wp (pipe x y) errexit Q s ↔
    wp x false (Ending.go Q fun _ => wp y errexit Q) s := by
  unfold wp pipe
  rcases x false s with ⟨r, s'⟩
  cases r <;> rfl

theorem wp_neg : wp (neg x) errexit Q s ↔
    wp x false (Ending.go Q fun code s => Q (.status (if code = 0 then 1 else 0)) s) s := by
  unfold wp neg
  rcases x false s with ⟨r, s'⟩
  cases r with
  | status code => cases code <;> rfl
  | _ => rfl

theorem wp_ifElse : wp (ifElse c x y) errexit Q s ↔
    wp c false (Ending.go Q fun code s =>
      if code = 0 then wp x errexit Q s else wp y errexit Q s) s := by
  unfold wp ifElse
  rcases c false s with ⟨r, s'⟩
  cases r with
  | status code => cases code <;> rfl
  | _ => rfl

theorem wp_func : wp (func body) errexit Q s ↔
    wp body errexit (fun r s =>
      match r with
      | .status code => Q (settle errexit code) s
      | .ret code => Q (settle errexit code) s
      | r => Q r s) s := by
  unfold wp func
  rcases body errexit s with ⟨r, s'⟩
  cases r <;> rfl

/-- What the body of a loop leaves: to `N` if the loop goes on, to `Q` if it ends. -/
def Ending.turn (Q : Ending → σ → Prop) (N : ℕ → σ → Prop) : Ending → σ → Prop
  | .status code, s => N code s
  | .cont, s => N 0 s
  | .brk, s => Q (.status 0) s
  | r, s => Q r s

theorem forFrom_cons {body : α → Shell σ} {a : α} {as : List α} {code : ℕ} :
    forFrom body code (a :: as) errexit s =
      match body a errexit s with
      | (.status code, s) => forFrom body code as errexit s
      | (.cont, s) => forFrom body 0 as errexit s
      | (.brk, s) => (.status 0, s)
      | r => r := by
  rw [forFrom]

theorem wp_forFrom_cons {body : α → Shell σ} {a : α} {as : List α} {code : ℕ} :
    wp (forFrom body code (a :: as)) errexit Q s ↔
      wp (body a) errexit
        (Ending.turn Q fun code => wp (forFrom body code as) errexit Q) s := by
  unfold wp
  rw [forFrom_cons]
  rcases body a errexit s with ⟨r, s'⟩
  cases r <;> rfl

/-- A `for` loop keeps an invariant about the words that are left. -/
theorem wp_forEach {body : α → Shell σ} {I : List α → σ → Prop} {words : List α}
    (hturn : ∀ a as s, I (a :: as) s → wp (body a) errexit (Ending.turn Q fun _ => I as) s)
    (hdone : ∀ code s, I [] s → Q (.status code) s) (h : I words s) :
    wp (forEach words body) errexit Q s := by
  have hfrom : ∀ as code s, I as s → wp (forFrom body code as) errexit Q s := by
    intro as
    induction as with
    | nil => exact fun code s hs => hdone code s hs
    | cons a as ih =>
      intro code s hs
      rw [wp_forFrom_cons]
      refine wp_mono (hturn a as s hs) fun r s' hr => ?_
      cases r with
      | status code => exact ih code s' hr
      | cont => exact ih 0 s' hr
      | _ => exact hr
  exact hfrom words 0 s h

theorem whileFrom_succ {fuel code : ℕ} :
    whileFrom c body (fuel + 1) code errexit s =
      match c false s with
      | (.status 0, s) =>
        match body errexit s with
        | (.status code, s) => whileFrom c body fuel code errexit s
        | (.cont, s) => whileFrom c body fuel 0 errexit s
        | (.brk, s) => (.status 0, s)
        | r => r
      | (.status (_ + 1), s) => (.status code, s)
      | r => r := by
  rw [whileFrom]

theorem wp_whileFrom_succ {fuel code : ℕ} : wp (whileFrom c body (fuel + 1) code) errexit Q s ↔
    wp c false (Ending.go Q fun test s =>
      if test = 0 then
        wp body errexit
          (Ending.turn Q fun code => wp (whileFrom c body fuel code) errexit Q) s
      else Q (.status code) s) s := by
  unfold wp
  rw [whileFrom_succ]
  rcases c false s with ⟨r, s⟩
  cases r with
  | status test =>
    cases test with
    | zero =>
      dsimp only [Ending.go]
      rcases body errexit s with ⟨r, s⟩
      cases r <;> rfl
    | succ test => rfl
  | _ => rfl

/-- A `while` loop whose state allows it at most `n` more turns. -/
theorem wp_loop {I : ℕ → σ → Prop} {fuel n : ℕ}
    (hturn : ∀ n s, I n s → wp c false (Ending.go Q fun test s =>
      if test = 0 then wp body errexit (Ending.turn Q fun _ s => ∃ m < n, I m s) s
      else ∀ code, Q (.status code) s) s)
    (hn : n < fuel) (h : I n s) : wp (loop fuel c body) errexit Q s := by
  have hfrom : ∀ fuel n code s, n < fuel → I n s → wp (whileFrom c body fuel code) errexit Q s := by
    intro fuel
    induction fuel with
    | zero => exact fun n _ _ hn => absurd hn (Nat.not_lt_zero n)
    | succ fuel ih =>
      intro n code s hn hs
      rw [wp_whileFrom_succ]
      refine wp_mono (hturn n s hs) fun r s hr => ?_
      cases r with
      | status test =>
        rw [go_status] at hr ⊢
        split at hr
        next htest =>
          rw [if_pos htest]
          refine wp_mono hr fun r s hr => ?_
          cases r with
          | status code =>
            obtain ⟨m, hm, hs⟩ := hr
            exact ih m code s (by omega) hs
          | cont =>
            obtain ⟨m, hm, hs⟩ := hr
            exact ih m 0 s (by omega) hs
          | _ => exact hr
        next htest =>
          rw [if_neg htest]
          exact hr code
      | _ => exact hr
  exact hfrom fuel n 0 s hn h

theorem wp_trapped {finish : ℕ → Shell σ} {main : Shell σ} :
    wp (trapped finish main) errexit Q s ↔
      wp main errexit (fun r s =>
        match r.code with
        | none => Q .lost s
        | some code => wp (finish code) errexit (fun r => Q (r.afterTrap code)) s) s := by
  unfold wp trapped
  rcases main errexit s with ⟨r, s⟩
  dsimp only
  split <;> rfl

end Conditions

/-- From `P` the command ends with a status and `R` holds, or it ends otherwise and `E` holds. -/
def Triple (P : σ → Prop) (x : Shell σ) (R : σ → Prop) (E : Ending → σ → Prop) : Prop :=
  ∀ s, P s → wp x true (Ending.go E fun _ => R) s

section Triples

variable {P P' M R R' I : σ → Prop} {x y : Shell σ} {xs : List (Shell σ)}
  {E : Ending → σ → Prop}

theorem Triple.mono (h : Triple P x R E) (hP : ∀ s, P' s → P s) (hR : ∀ s, R s → R' s) :
    Triple P' x R' E := by
  intro s hs
  refine wp_mono (h s (hP s hs)) fun r s hr => ?_
  cases r with
  | status code => exact hR s hr
  | _ => exact hr

theorem Triple.seq (hx : Triple P x M E) (hy : Triple M y R E) : Triple P (seq x y) R E := by
  intro s hs
  rw [wp_seq]
  refine wp_mono (hx s hs) fun r s hr => ?_
  cases r with
  | status code => exact hy s hr
  | _ => exact hr

theorem Triple.cons (hx : Triple P x M E) (hxs : Triple M (Shell.block (y :: xs)) R E) :
    Triple P (Shell.block (x :: y :: xs)) R E :=
  hx.seq hxs

theorem Triple.assign {f : σ → σ} (h : ∀ s, P s → R (f s)) : Triple P (Shell.assign f) R E :=
  fun s hs => h s hs

theorem Triple.weaken {E' : Ending → σ → Prop} (h : Triple P x R E)
    (hE : ∀ r s, E r s → E' r s) : Triple P x R E' := by
  intro s hs
  refine wp_mono (h s hs) fun r s hr => ?_
  cases r with
  | status code => exact hr
  | _ => exact hE _ s hr

/-- A `for` loop whose body does not leave the loop. -/
theorem Triple.forEach {body : α → Shell σ} {words : List α} {I : List α → σ → Prop}
    (hturn : ∀ a as, Triple (I (a :: as)) (body a) (I as) E)
    (hE : ∀ s, ¬ E .brk s ∧ ¬ E .cont s) :
    Triple (I words) (Shell.forEach words body) (I []) E := by
  refine fun s hs => wp_forEach (fun a as s hs => ?_) (fun _ s hs => hs) hs
  refine wp_mono (hturn a as s hs) fun r s hr => ?_
  cases r with
  | brk => exact absurd hr (hE s).1
  | cont => exact absurd hr (hE s).2
  | _ => exact hr

/-- A `for` loop that counts its turns. -/
theorem Triple.forEach_counted {body : α → Shell σ} {words : List α} {I : ℕ → σ → Prop}
    (hturn : ∀ i a, words[i]? = some a → Triple (I i) (body a) (I (i + 1)) E)
    (hE : ∀ s, ¬ E .brk s ∧ ¬ E .cont s) :
    Triple (I 0) (Shell.forEach words body) (I words.length) E := by
  refine (Triple.forEach (I := fun rest s => ∃ earlier, words = earlier ++ rest ∧
    I earlier.length s) ?_ hE).mono (fun s hs => ⟨[], rfl, hs⟩) ?_
  · rintro a rest s ⟨earlier, heq, hs⟩
    have ha : words[earlier.length]? = some a := by simp [heq]
    refine (hturn _ a ha).mono (fun _ => id) (fun t ht => ⟨earlier ++ [a], ?_, ?_⟩) s hs
    · simpa using heq
    · simpa using ht
  · rintro s ⟨earlier, heq, hs⟩
    rw [List.append_nil] at heq
    rwa [heq]

/-- What `return` makes of the conditions of a function. -/
def Ending.returned (R : σ → Prop) (E : Ending → σ → Prop) : Ending → σ → Prop
  | .ret 0, s => R s
  | .ret (code + 1), s => E (.exit (code + 1)) s
  | r, s => E r s

theorem Triple.func (h : Triple P x (fun _ => False) (Ending.returned R E)) :
    Triple P (Shell.func x) R E := by
  intro s hs
  rw [wp_func]
  refine wp_mono (h s hs) fun r s hr => ?_
  cases r with
  | status code => exact hr.elim
  | ret code => cases code <;> exact hr
  | _ => exact hr

theorem Triple.ifElse {c : Shell σ}
    (hc : ∀ s, P s → wp c false (fun r s => (∃ code, r = .status code) ∧ M s) s)
    (hx : Triple M x R E) (hy : Triple M y R E) : Triple P (ifElse c x y) R E := by
  intro s hs
  rw [wp_ifElse]
  refine wp_mono (hc s hs) ?_
  rintro _ s ⟨⟨code, rfl⟩, hs⟩
  rw [go_status]
  split
  · exact hx s hs
  · exact hy s hs

theorem Triple.pipe (hx : ∀ s, P s → wp x false (fun r s => (∃ code, r = .status code) ∧ M s) s)
    (hy : Triple M y R E) : Triple P (pipe x y) R E := by
  intro s hs
  rw [wp_pipe]
  refine wp_mono (hx s hs) ?_
  rintro _ s ⟨⟨code, rfl⟩, hs⟩
  exact hy s hs

theorem Triple.tolerated
    (hx : ∀ s, P s → wp x false (fun r s => (∃ code, r = .status code) ∧ R s) s) :
    Triple P (either x skip) R E := by
  intro s hs
  rw [wp_either]
  refine wp_mono (hx s hs) ?_
  rintro _ s ⟨⟨code, rfl⟩, hs⟩
  rw [go_status]
  split <;> exact hs

end Triples

/-- Whatever way a command ends, it keeps the invariant. -/
def Keeps (I : σ → Prop) (x : Shell σ) : Prop :=
  ∀ errexit s, I s → I (x errexit s).2

section Keeps

variable {I : σ → Prop} {x y c : Shell σ}

theorem Keeps.run {f : σ → ℕ × σ} (h : ∀ s, I s → I (f s).2) : Keeps I (run f) :=
  fun _ s hs => h s hs

theorem Keeps.assign {f : σ → σ} (h : ∀ s, I s → I (f s)) : Keeps I (assign f) :=
  fun _ s hs => h s hs

theorem Keeps.jump {r : Ending} : Keeps I (jump r) :=
  fun _ _ hs => hs

theorem Keeps.leave {r : σ → Ending} : Keeps I (leave r) :=
  fun _ _ hs => hs

theorem Keeps.skip : Keeps I skip :=
  Keeps.jump

theorem Keeps.test {p : σ → Bool} : Keeps I (test p) :=
  fun _ _ hs => hs

theorem Keeps.seq (hx : Keeps I x) (hy : Keeps I y) : Keeps I (seq x y) := by
  intro errexit s hs
  have hxs := hx errexit s hs
  unfold Shell.seq
  split
  next h => exact hy errexit _ (by rwa [h] at hxs)
  next => exact hxs

theorem Keeps.block {xs : List (Shell σ)} (h : ∀ x ∈ xs, Keeps I x) : Keeps I (block xs) := by
  induction xs with
  | nil => exact Keeps.skip
  | cons x xs ih =>
    obtain ⟨hx, hxs⟩ := List.forall_mem_cons.mp h
    cases xs with
    | nil => exact hx
    | cons z zs => exact hx.seq (ih hxs)

theorem Keeps.both (hx : Keeps I x) (hy : Keeps I y) : Keeps I (both x y) := by
  intro errexit s hs
  have hxs := hx false s hs
  unfold Shell.both
  split
  next h => exact hy errexit _ (by rwa [h] at hxs)
  next => exact hxs

theorem Keeps.either (hx : Keeps I x) (hy : Keeps I y) : Keeps I (either x y) := by
  intro errexit s hs
  have hxs := hx false s hs
  unfold Shell.either
  split
  next h => exact hy errexit _ (by rwa [h] at hxs)
  next => exact hxs

theorem Keeps.pipe (hx : Keeps I x) (hy : Keeps I y) : Keeps I (pipe x y) := by
  intro errexit s hs
  have hxs := hx false s hs
  unfold Shell.pipe
  split
  next h => exact hy errexit _ (by rwa [h] at hxs)
  next => exact hxs

theorem Keeps.neg (hx : Keeps I x) : Keeps I (neg x) := by
  intro errexit s hs
  have hxs := hx false s hs
  unfold Shell.neg
  split
  next h => rwa [h] at hxs
  next h => rwa [h] at hxs
  next => exact hxs

theorem Keeps.ifElse (hc : Keeps I c) (hx : Keeps I x) (hy : Keeps I y) :
    Keeps I (ifElse c x y) := by
  intro errexit s hs
  have hcs := hc false s hs
  unfold Shell.ifElse
  split
  next h => exact hx errexit _ (by rwa [h] at hcs)
  next h => exact hy errexit _ (by rwa [h] at hcs)
  next => exact hcs

theorem Keeps.forEach {body : α → Shell σ} {words : List α} (h : ∀ a ∈ words, Keeps I (body a)) :
    Keeps I (forEach words body) := by
  have hfrom : ∀ as code, (∀ a ∈ as, Keeps I (body a)) → Keeps I (forFrom body code as) := by
    intro as
    induction as with
    | nil => exact fun _ _ => Keeps.jump
    | cons a as ih =>
      intro code has errexit s hs
      obtain ⟨ha, hrest⟩ := List.forall_mem_cons.mp has
      have hbody := ha errexit s hs
      rw [forFrom_cons]
      split
      next h => exact ih _ hrest errexit _ (by rwa [h] at hbody)
      next h => exact ih 0 hrest errexit _ (by rwa [h] at hbody)
      next h => rwa [h] at hbody
      next => exact hbody
  exact hfrom words 0 h

theorem Keeps.loop {body : Shell σ} {fuel : ℕ} (hc : Keeps I c) (hbody : Keeps I body) :
    Keeps I (loop fuel c body) := by
  have hfrom : ∀ fuel code, Keeps I (whileFrom c body fuel code) := by
    intro fuel
    induction fuel with
    | zero => exact fun _ => Keeps.jump
    | succ fuel ih =>
      intro code errexit s hs
      have hcs := hc false s hs
      rw [whileFrom_succ]
      split
      next s' h =>
        have hs' : I s' := by rwa [h] at hcs
        have hbs := hbody errexit s' hs'
        split
        next h => exact ih _ errexit _ (by rwa [h] at hbs)
        next h => exact ih 0 errexit _ (by rwa [h] at hbs)
        next h => rwa [h] at hbs
        next => exact hbs
      next h => rwa [h] at hcs
      next => exact hcs
  exact hfrom fuel 0

theorem Keeps.func (hx : Keeps I x) : Keeps I (func x) := by
  intro errexit s hs
  have hxs := hx errexit s hs
  unfold Shell.func
  split
  next h => rwa [h] at hxs
  next h => rwa [h] at hxs
  next => exact hxs

/-- What a command keeps holds besides what it achieves. -/
theorem Keeps.wp {errexit : Bool} {Q : Ending → σ → Prop} {s : σ} (hk : Keeps I x) (hs : I s)
    (h : wp x errexit Q s) : wp x errexit (fun r s => Q r s ∧ I s) s :=
  ⟨h, hk errexit s hs⟩

/-- What a command keeps may be added to what it asks for and to what it brings about. -/
theorem Triple.frame {P R : σ → Prop} {E : Ending → σ → Prop} (h : Triple P x R E)
    (hk : Keeps I x) : Triple (fun s => P s ∧ I s) x (fun s => R s ∧ I s) E := by
  rintro s ⟨hs, hi⟩
  refine wp_mono (hk.wp hi (h s hs)) ?_
  rintro r s ⟨hr, hi⟩
  cases r with
  | status code => exact ⟨hr, hi⟩
  | _ => exact hr

end Keeps

end Shell
