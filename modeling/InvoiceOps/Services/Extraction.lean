/-
One invoice through text extraction and structured extraction by a model:
an attempt lands it in EXTRACTED or FAILED.
-/
import InvoiceOps.Services.Lifecycle

namespace InvoiceOps

/-! ## Documents -/

structure DocumentText where
  text : String
  pageCount : Nat
  method : TextMethod

def DocumentText.isEmpty (py : Py) (d : DocumentText) : Bool := py.strip d.text == ""

def pdfText (env : Env) (data : Bytes) : Except Exn DocumentText := do
  let pages ← (env.pdfPages data).mapError .other
  return ⟨env.py.strip (Py.join "\n\n" pages), pages.length, .pdfplumber⟩

def extractText (env : Env) (data : Bytes) (contentType : String) : Except Exn DocumentText :=
  if contentType = "application/pdf" then pdfText env data
  else if contentType.startsWith "image/" then .ok ⟨"", 1, .ocr⟩
  else .error (.valueError ("cannot extract text from content type: " ++ contentType))

/-! ## The model -/

/-- How one call to the model ends: in an `LLMError`, in another exception,
or in a response, with null `content` when the provider's message has none. -/
inductive LlmReply where
  | llmError (message : String)
  | raised (message : String)
  | response (content : Option String) (model : String)

/-- A `StructuredLLM`: what its `n`th call answers to a system prompt, a user
prompt and a schema. -/
abbrev Llm := Nat → String → String → String → LlmReply

/-- `OpenRouterClient(settings)`, in front of a provider. -/
def openRouterClient (settings : Settings) (provider : Llm) : Except Exn Llm :=
  if Py.truthy settings.openrouterApiKey then .ok provider
  else .error (.llmError "OPENROUTER_API_KEY is not set")

/-- `llm or OpenRouterClient(settings)` -/
def llmOrClient (settings : Settings) (llm : Option Llm) (provider : Llm) : Except Exn Llm :=
  match llm with
  | some llm => .ok llm
  | none => openRouterClient settings provider

def maxTextChars : Nat := 20000

def systemPrompt : String :=
  "You extract structured data from a single supplier invoice. " ++
  "Return ONLY a JSON object matching the schema. " ++
  "Use null for any field not clearly present in the text -- never guess. " ++
  "Exception: if currency is not printed explicitly, infer it from strong " ++
  "contextual signals (seller/buyer country or address, decimal-comma vs " ++
  "decimal-point formatting) rather than returning null -- a competent " ++
  "bookkeeper would not leave it blank just because the symbol is missing. " ++
  "This inference allowance applies to currency only: every other field " ++
  "(amounts, dates, names, identifiers) must stay null when not clearly " ++
  "present, and field_confidence should be lower for an inferred value " ++
  "than for one read directly off the page. " ++
  "Amounts are plain numbers: no currency symbols, no thousands separators. " ++
  "Dates are ISO 8601 (YYYY-MM-DD). " ++
  "In field_confidence give a 0..1 score for every field you populated in `invoice`."

def userPrompt (env : Env) (documentText : String) (errorHint : Option String) : String :=
  Py.join "\n"
    (["JSON Schema:", env.resultJsonSchema, "", "Invoice text:", "\"\"\"",
      String.ofList (documentText.toList.take maxTextChars), "\"\"\""] ++
    if Py.truthy errorHint then
      ["", "Your previous response was rejected. Fix this and return valid JSON:", errorHint.getD ""]
    else [])

structure RetryOutcome where
  result : ExtractionResult
  attempts : Nat
  rawResponse : String
  model : String

/-- What the retry loop carries from one attempt to the next. -/
structure RetryState where
  errorHint : Option String
  lastRaw : String
  errors : List String
  attempt : Nat

/-- What follows a rejected response. -/
def RetryState.rejected (s : RetryState) (content error : String) : RetryState :=
  ⟨some error, content, s.errors ++ [error], s.attempt + 1⟩

/-- The attempts still allowed, from state `s`: the prompts sent and how the
loop ended. -/
def retryLoop (env : Env) (llm : Llm) (documentText : String) :
    Nat → RetryState → List String × Except Exn RetryOutcome
  | 0, s => ([], .error (.extractionFailed (Py.join "; " s.errors) s.attempt (some s.lastRaw)))
  | n + 1, s =>
    let prompt := userPrompt env documentText s.errorHint
    match llm (s.attempt + 1) systemPrompt prompt env.resultJsonSchema with
    | .llmError message => ([prompt], .error (.llmError message))
    | .raised message => ([prompt], .error (.other message))
    | .response none _ =>
      ([prompt], .error (.typeError "the JSON object must be str, bytes or bytearray, not NoneType"))
    | .response (some content) model =>
      match env.parseReply content with
      | .accepted result => ([prompt], .ok ⟨result, s.attempt + 1, content, model⟩)
      | .notJson error =>
        let r := retryLoop env llm documentText n
          (s.rejected content ("response was not valid JSON: " ++ error))
        (prompt :: r.1, r.2)
      | .schemaViolation error =>
        let r := retryLoop env llm documentText n
          (s.rejected content ("JSON did not match the schema: " ++ error))
        (prompt :: r.1, r.2)
      | .raised error => ([prompt], .error (.other error))

/-- The prompts sent and the outcome. -/
def extractWithRetry (env : Env) (llm : Llm) (documentText : String) (maxRetries : Int) :
    List String × Except Exn RetryOutcome :=
  retryLoop env llm documentText (maxRetries + 1).toNat ⟨none, "", [], 0⟩

/-! ## The stage -/

/-- `_fail` -/
def failExtraction (invoice : Invoice) (model : String) (textMethod : TextMethod) (error : String)
    (attempts : Nat) (rawResponse : Option String) : Tx Extraction := do
  let extraction : Extraction :=
    { model, textMethod, attempts, ok := false, resultJson := none, fieldConfidence := none,
      error := some error, rawResponse }
  Tx.updateInvoice invoice.id fun r => { r with extractions := r.extractions ++ [extraction] }
  let invoice ← setFailureReason invoice (some error)
  let _ ← advance invoice .failed "system" (some error)
  return extraction

/-- `s or default` -/
def orElseText (s default : String) : String := if s = "" then default else s

def runExtraction (env : Env) (llm : Option Llm) (provider : Llm) (invoiceId : Uuid) :
    Tx (Option Extraction) := do
  match ← Tx.getInvoice invoiceId with
  | none => Tx.raise (.valueError ("invoice " ++ invoiceId.str ++ " not found"))
  | some invoice =>
    -- Already processed (or being processed): no second attempt.
    if invoice.status ≠ .received then return none
    else
      let invoice ← advance invoice .extracting "system" (some "starting text + LLM extraction")
      let data ← Tx.getObject env invoice.storageKey
      let document ← Txn.ofExcept (extractText env data invoice.contentType)
      if document.isEmpty env.py then
        some <$> failExtraction invoice env.settings.llmModel document.method
          "no extractable text layer (OCR fallback not implemented yet)" 0 none
      else
        match llmOrClient env.settings llm provider with
        | .error (.llmError message) =>
          some <$> failExtraction invoice env.settings.llmModel document.method message 0 none
        | .error e => Tx.raise e
        | .ok client =>
          match (extractWithRetry env client document.text env.settings.llmMaxRetries).2 with
          | .error (.extractionFailed message attempts rawResponse) =>
            some <$> failExtraction invoice env.settings.llmModel document.method message attempts rawResponse
          | .error e => Tx.raise e
          | .ok outcome =>
            let usedModel := orElseText outcome.model env.settings.llmModel
            let extraction : Extraction :=
              { model := usedModel, textMethod := document.method, attempts := outcome.attempts, ok := true,
                resultJson := some outcome.result, fieldConfidence := some outcome.result.fieldConfidence,
                error := none, rawResponse := some outcome.rawResponse }
            Tx.updateInvoice invoice.id fun r => { r with extractions := r.extractions ++ [extraction] }
            let invoice ← setFailureReason invoice none
            let _ ← advance invoice .extracted "system"
              (some ("extracted in " ++ Nat.repr outcome.attempts ++ " attempt(s) via " ++ usedModel))
            return some extraction

def latestSuccessfulExtraction (extractions : List Extraction) : Option Extraction :=
  extractions.reverse.find? (·.ok)

def latestMatch (invoiceMatches : List InvoiceMatch) : Option InvoiceMatch := invoiceMatches.getLast?

end InvoiceOps
