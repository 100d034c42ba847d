/-
The retry loop, attempt by attempt. After `k` rejections the loop carries the
last of them as its hint and all of them as its errors (`RetryState.after`);
what the next response is decides whether it ends there (`retryLoop_accepted`)
or goes on (`retryLoop_rejected`).
-/
import InvoiceOps.Facts.Alone

namespace InvoiceOps

/-- The response is accepted, not JSON or in violation of the schema. -/
def ParsedReply.Classified : ParsedReply → Prop
  | .accepted _ | .notJson _ | .schemaViolation _ => True
  | .raised _ => False

/-- The user prompt after a response that was rejected for `error`. -/
def rejectionPrompt (env : Env) (text error : String) : String :=
  userPrompt env text none ++ "\n\nYour previous response was rejected. Fix this and return valid JSON:\n" ++ error

section attempts
variable (env : Env) (text : String) (contents models : Nat → String)

/-- What is wrong with response `k`, counted from 0. -/
def rejection (k : Nat) : String := ((env.parseReply (contents k)).hint).getD ""

/-- The user prompt that asks for response `k`. -/
def attemptPrompt : Nat → String
  | 0 => userPrompt env text none
  | k + 1 => rejectionPrompt env text (rejection env contents k)

/-- The model answers the prompts with these responses. -/
def Replies (llm : Llm) : Prop :=
  ∀ k, llm (k + 1) systemPrompt (attemptPrompt env text contents k) env.resultJsonSchema =
    .response (some (contents k)) (models k)

/-- What the loop carries once the first `k` responses were rejected. -/
def RetryState.after (k : Nat) : RetryState where
  errorHint := if k = 0 then none else some (rejection env contents (k - 1))
  lastRaw := if k = 0 then "" else contents (k - 1)
  errors := (List.range k).map (rejection env contents)
  attempt := k

/-- Response `k` is the first that is accepted. -/
def FirstAccepted (k : Nat) (result : ExtractionResult) : Prop :=
  env.parseReply (contents k) = .accepted result ∧ ∀ j < k, (env.parseReply (contents j)).hint.isSome = true

end attempts

section loop
variable {env : Env} {text : String} {contents models : Nat → String} {llm : Llm} {k n : Nat}

/-- A hint is no empty text: it says what kind of error it is. -/
theorem ParsedReply.hint_ne_empty {r : ParsedReply} {error : String} (h : r.hint = some error) : error ≠ "" := by
  have hne : ∀ {a b : String}, a ≠ "" → a ++ b ≠ "" := fun ha hab => ha (String.append_eq_empty_iff.mp hab).1
  cases r <;> cases h
  · exact hne (by decide)
  · exact hne (by decide)

/-- The prompt carries the hint, after the parts that never change. -/
theorem userPrompt_some {error : String} (hne : error ≠ "") :
    userPrompt env text (some error) = rejectionPrompt env text error := by
  have hhint : Py.truthy (some error) = true := by simpa [Py.truthy] using hne
  have hnone : Py.truthy none = false := rfl
  have htail : Py.join "\n" ["", "Your previous response was rejected. Fix this and return valid JSON:", error] =
      "\n" ++ ("Your previous response was rejected. Fix this and return valid JSON:" ++ "\n" ++ error) := by
    simp only [Py.join, String.intercalate_cons_cons, String.intercalate_singleton, String.empty_append, String.append_assoc]
  rw [rejectionPrompt, userPrompt, userPrompt, if_pos hhint, hnone, if_neg Bool.false_ne_true, List.append_nil, Py.join,
    String.intercalate_append_of_ne_nil (List.cons_ne_nil _ _) (List.cons_ne_nil _ _), ← Py.join, ← Py.join,
    Option.getD_some, htail]
  simp only [String.append_assoc]
  rfl

theorem userPrompt_after (h : k ≠ 0 → (env.parseReply (contents (k - 1))).hint.isSome = true) :
    userPrompt env text (RetryState.after env contents k).errorHint = attemptPrompt env text contents k := by
  cases k with
  | zero => rfl
  | succ k =>
    obtain ⟨error, herror⟩ := Option.isSome_iff_exists.mp (h k.succ_ne_zero)
    rw [Nat.add_sub_cancel] at herror
    rw [RetryState.after, if_neg k.succ_ne_zero, Nat.add_sub_cancel, attemptPrompt, rejection, herror, Option.getD_some]
    exact userPrompt_some (ParsedReply.hint_ne_empty herror)

theorem after_rejected : (RetryState.after env contents k).rejected (contents k) (rejection env contents k) =
    RetryState.after env contents (k + 1) := by
  simp only [RetryState.rejected, RetryState.after, List.range_succ, List.map_append, List.map_cons, List.map_nil,
    Nat.add_sub_cancel, Nat.succ_ne_zero, if_false]

/-- An accepted response ends the loop. -/
theorem retryLoop_accepted (hr : Replies env text contents models llm) {result : ExtractionResult}
    (hfirst : FirstAccepted env contents k result) : retryLoop env llm text (n + 1) (RetryState.after env contents k) =
      ([attemptPrompt env text contents k], .ok ⟨result, k + 1, contents k, models k⟩) := by
  have hprompt : userPrompt env text (RetryState.after env contents k).errorHint = attemptPrompt env text contents k :=
    userPrompt_after fun hk => hfirst.2 (k - 1) (by omega)
  have hreply := hr k
  rw [retryLoop, hprompt, show (RetryState.after env contents k).attempt = k from rfl]
  simp only [hreply, hfirst.1]

/-- A rejected one leads to the next attempt, if there is one left. -/
theorem retryLoop_rejected (hr : Replies env text contents models llm)
    (hrej : ∀ j ≤ k, (env.parseReply (contents j)).hint.isSome = true) :
    retryLoop env llm text (n + 1) (RetryState.after env contents k) =
      (attemptPrompt env text contents k :: (retryLoop env llm text n (RetryState.after env contents (k + 1))).1,
        (retryLoop env llm text n (RetryState.after env contents (k + 1))).2) := by
  have hprompt : userPrompt env text (RetryState.after env contents k).errorHint = attemptPrompt env text contents k :=
    userPrompt_after fun hk => hrej (k - 1) (by omega)
  have hreply := hr k
  have hlast := hrej k (Nat.le_refl k)
  rw [retryLoop, hprompt, show (RetryState.after env contents k).attempt = k from rfl, ← after_rejected, rejection]
  simp only [hreply]
  cases hp : env.parseReply (contents k) with
  | accepted result | raised error =>
    rw [hp] at hlast
    cases hlast
  | notJson error | schemaViolation error => rfl

/-- **The loop after `k` rejections**, `n` attempts left. -/
theorem retryLoop_after (hr : Replies env text contents models llm) :
    ∀ k n, (∀ j < k, (env.parseReply (contents j)).hint.isSome = true) →
      retryLoop env llm text (n + k) (RetryState.after env contents 0) =
        ((List.range k).map (attemptPrompt env text contents) ++
            (retryLoop env llm text n (RetryState.after env contents k)).1,
          (retryLoop env llm text n (RetryState.after env contents k)).2)
  | 0, n, _ => rfl
  | k + 1, n, hrej => by
    rw [show n + (k + 1) = n + 1 + k by omega, retryLoop_after hr k (n + 1) fun j hj => hrej j (by omega),
      retryLoop_rejected hr fun j hj => hrej j (by omega), List.range_succ, List.map_append]
    simp only [List.map_cons, List.map_nil, List.append_assoc, List.cons_append, List.nil_append]

theorem extractWithRetry_eq : extractWithRetry env llm text n = retryLoop env llm text (n + 1) (.after env contents 0) := by
  rw [extractWithRetry, show ((n : Int) + 1).toNat = n + 1 by omega]
  rfl

/-- **The run that ends in an accepted response.** -/
theorem extractWithRetry_first (hr : Replies env text contents models llm) {result : ExtractionResult} (hk : k ≤ n)
    (hfirst : FirstAccepted env contents k result) : extractWithRetry env llm text n =
      ((List.range (k + 1)).map (attemptPrompt env text contents), .ok ⟨result, k + 1, contents k, models k⟩) := by
  rw [extractWithRetry_eq, show n + 1 = n - k + 1 + k by omega, retryLoop_after hr k _ hfirst.2,
    retryLoop_accepted hr hfirst, List.range_succ, List.map_append]
  rfl

/-- **The run that gives up.** -/
theorem extractWithRetry_none (hr : Replies env text contents models llm)
    (hrej : ∀ k ≤ n, (env.parseReply (contents k)).hint.isSome = true) : extractWithRetry env llm text n =
      ((List.range (n + 1)).map (attemptPrompt env text contents),
        .error (.extractionFailed (Py.join "; " ((List.range (n + 1)).map (rejection env contents))) (n + 1)
          (some (contents n)))) := by
  have hloop := retryLoop_after hr (n + 1) 0 fun j hj => hrej j (by omega)
  rw [Nat.zero_add, retryLoop, List.append_nil] at hloop
  rw [extractWithRetry_eq, hloop]
  rfl

/-- Of `n` responses, the first accepted one, or none. -/
theorem firstAccepted_or (hclass : ∀ k, (env.parseReply (contents k)).Classified) : ∀ n,
    (∃ k < n, ∃ result, FirstAccepted env contents k result) ∨
      ∀ j < n, (env.parseReply (contents j)).hint.isSome = true
  | 0 => .inr fun j hj => by omega
  | n + 1 => by
    rcases firstAccepted_or hclass n with ⟨k, hk, result, hfirst⟩ | hrej
    · exact .inl ⟨k, by omega, result, hfirst⟩
    have hn := hclass n
    cases hp : env.parseReply (contents n) with
    | raised error =>
      rw [hp] at hn
      exact hn.elim
    | accepted result => exact .inl ⟨n, by omega, result, hp, hrej⟩
    | notJson error | schemaViolation error =>
      refine .inr fun j hj => ?_
      rcases Nat.lt_succ_iff_lt_or_eq.mp hj with hj | rfl
      · exact hrej j hj
      · rw [hp]
        rfl

/-- The prompts of a run are those for the first `m` responses. -/
theorem prompts_eq (hr : Replies env text contents models llm) (hclass : ∀ k, (env.parseReply (contents k)).Classified) :
    ∃ m ≤ n, (extractWithRetry env llm text n).1 = (List.range (m + 1)).map (attemptPrompt env text contents) ∧
      ∀ j < m, (env.parseReply (contents j)).hint.isSome = true := by
  rcases firstAccepted_or hclass (n + 1) with ⟨k, hk, result, hfirst⟩ | hrej
  · exact ⟨k, by omega, congrArg Prod.fst (extractWithRetry_first hr (by omega) hfirst), hfirst.2⟩
  · exact ⟨n, Nat.le_refl n, congrArg Prod.fst (extractWithRetry_none hr fun j hj => hrej j (by omega)),
      fun j hj => hrej j (by omega)⟩

/-- **The retry loop accounts for its attempts.** It makes at most one call
more than the retries allowed; the first accepted response is returned, with
the calls made; without one the failure carries an error for each attempt and
the last response; and each prompt but the first carries what is wrong with
the response before it. -/
theorem extractWithRetry_accounts (hr : Replies env text contents models llm)
    (hclass : ∀ k, (env.parseReply (contents k)).Classified) (n : Nat) :
    (extractWithRetry env llm text n).1.length ≤ n + 1 ∧
    (∀ k ≤ n, ∀ result, FirstAccepted env contents k result →
      (extractWithRetry env llm text n).1.length = k + 1 ∧
      (extractWithRetry env llm text n).2 = .ok ⟨result, k + 1, contents k, models k⟩) ∧
    ((∀ k ≤ n, ∀ result, env.parseReply (contents k) ≠ .accepted result) →
      (extractWithRetry env llm text n).1.length = n + 1 ∧
      (extractWithRetry env llm text n).2 = .error (.extractionFailed
        (Py.join "; " ((List.range (n + 1)).map (rejection env contents))) (n + 1) (some (contents n)))) ∧
    (extractWithRetry env llm text n).1[0]? = some (userPrompt env text none) ∧
    ∀ k, k + 1 < (extractWithRetry env llm text n).1.length → ∃ error,
      (env.parseReply (contents k)).hint = some error ∧
      (extractWithRetry env llm text n).1[k + 1]? = some (rejectionPrompt env text error) := by
  obtain ⟨m, hm, hprompts, hrej⟩ := prompts_eq (n := n) hr hclass
  have hlen : (extractWithRetry env llm text n).1.length = m + 1 := by
    rw [hprompts, List.length_map, List.length_range]
  refine ⟨by omega, fun k hk result hfirst => ?_, fun hnone => ?_, ?_, fun k hk => ?_⟩
  · rw [extractWithRetry_first hr hk hfirst, List.length_map, List.length_range]
    exact ⟨rfl, rfl⟩
  · rcases firstAccepted_or hclass (n + 1) with ⟨k, hk, result, hfirst⟩ | hall
    · exact absurd hfirst.1 (hnone k (by omega) result)
    · rw [extractWithRetry_none hr fun j hj => hall j (by omega), List.length_map, List.length_range]
      exact ⟨rfl, rfl⟩
  · rw [hprompts, List.getElem?_map, List.getElem?_range (Nat.succ_pos m)]
    rfl
  · obtain ⟨error, herror⟩ := Option.isSome_iff_exists.mp (hrej k (by omega))
    rw [hprompts, List.getElem?_map, List.getElem?_range (by omega), Option.map_some, attemptPrompt, rejection, herror,
      Option.getD_some]
    exact ⟨error, rfl, rfl⟩

/-- The prompts of a run that is rejected throughout, from what the model
answers call by call. -/
def promptsOf (env : Env) (text : String) (answer : Nat → String → String × String) : Nat → String
  | 0 => userPrompt env text none
  | k + 1 =>
    rejectionPrompt env text (((env.parseReply (answer k (promptsOf env text answer k)).1).hint).getD "")

/-- A model that answers every call with a content has its responses. -/
theorem exists_replies (h : ∀ k prompt, ∃ content model,
    llm k systemPrompt prompt env.resultJsonSchema = .response (some content) model) :
    ∃ contents models, Replies env text contents models llm := by
  choose content model hreply using fun k prompt => h (k + 1) prompt
  let answer k prompt := (content k prompt, model k prompt)
  refine ⟨fun k => content k (promptsOf env text answer k), fun k => model k (promptsOf env text answer k), fun k => ?_⟩
  have hprompt : ∀ k, attemptPrompt env text (fun k => content k (promptsOf env text answer k)) k =
      promptsOf env text answer k
    | 0 => rfl
    | _ + 1 => rfl
  rw [hprompt k]
  exact hreply k _

end loop

namespace Sample

/-- An empty response, and then the right one. -/
def secondThought : Nat → String
  | 0 => ""
  | _ + 1 => plain.text

/-- A model that gives these responses whatever it is asked. -/
def thoughtful : Llm := fun k _ _ _ => .response (some (secondThought (k - 1))) "model"

theorem parseReply_empty : env.parseReply "" = .notJson "Expecting value: line 1 column 1 (char 0)" :=
  parseReply_none (by decide +kernel)

theorem parseReply_plain : env.parseReply plain.text = .accepted plain.result := parseReply_some (by decide +kernel)

theorem thoughtful_classified (k : Nat) : (env.parseReply (secondThought k)).Classified := by
  cases k with
  | zero =>
    rw [secondThought, parseReply_empty]
    trivial
  | succ k =>
    rw [secondThought, parseReply_plain]
    trivial

theorem thoughtful_first : FirstAccepted env secondThought 1 plain.result := by
  rw [FirstAccepted, secondThought, parseReply_plain]
  refine ⟨rfl, fun j hj => ?_⟩
  obtain rfl : j = 0 := by omega
  rw [secondThought, parseReply_empty]
  rfl

/-- Two calls, and the outcome of the second. -/
theorem thoughtful_accounts : (extractWithRetry env thoughtful "text" (2 : Nat)).1.length = 2 ∧
    (extractWithRetry env thoughtful "text" (2 : Nat)).2 = .ok ⟨plain.result, 2, secondThought 1, "model"⟩ :=
  (@extractWithRetry_accounts env "text" secondThought (fun _ => "model") thoughtful (fun _ => rfl)
    thoughtful_classified 2).2.1 1 (by decide) plain.result thoughtful_first

end Sample

end InvoiceOps
