import SpectralResponse.Product

/-!
# Faults

The causes for which the library refuses a request. Each part of the library has its own causes, and
`Fault` is their sum. What a user is told about a cause is settled elsewhere
(`SpectralResponse.Fault.Diagnostic`); here stands only what went wrong and where. Two lengths that
should agree are always named as `expected` and `actual`.
-/

namespace SpectralResponse

/-- Why a list of bins is no grid. -/
inductive GridFault (α : Type) where
  /-- There is no bin. -/
  | empty
  /-- The numbers of low and high edges differ. -/
  | lengthMismatch (lo hi : Nat)
  /-- An edge is no finite number. -/
  | nonFinite (index : Nat) (value : α)
  /-- A wavelength is zero or negative. -/
  | nonPositiveWavelength (index : Nat) (value : α)
  /-- A bin does not end above its start. -/
  | nonPositiveWidth (index : Nat) (lo hi : α)
  /-- A bin starts below the end of the bin before it. -/
  | nonMonotonic (index : Nat) (previousHi lo : α)
  deriving Repr

/-- Why values cannot be moved from one grid to another. -/
inductive RebinFault where
  /-- There is not one value for each source bin. -/
  | values (bins given : Nat)
  /-- There is not one weight for each source bin. -/
  | weights (bins given : Nat)
  deriving DecidableEq, Repr

/-- Why a calibration table does not give what is asked of it. -/
inductive TableFault (α : Type) where
  /-- The text is no calibration document. -/
  | malformed (origin : String)
  /-- The file cannot be read. -/
  | unreadable (path : String)
  /-- No extension has one of the names. -/
  | missingExtension (origin : String) (candidates : List String)
  /-- A keyword that must hold a number is missing or holds none. -/
  | missingKeyword (extension name : String)
  /-- A column is missing. -/
  | missingColumn (extension name : String)
  /-- A column that must hold one value a row holds lists. -/
  | variableColumn (extension name : String)
  /-- There is neither a column nor a keyword of the name. -/
  | missingField (extension name : String)
  /-- A cell is no natural number. -/
  | notCount (field : String) (row : Nat) (value : α)
  deriving Repr

/-- Why a text is no table of columns. Lines are numbered from one. -/
inductive ColumnsFault where
  /-- A word is no number. -/
  | notNumber (origin : String) (line : Nat) (word : String)
  /-- The first row is too short. -/
  | tooFew (origin : String) (line expected actual : Nat)
  /-- A row is not as long as the first one. -/
  | raggedRow (origin : String) (line expected actual : Nat)
  /-- There is no row. -/
  | noRows (origin : String)
  deriving DecidableEq, Repr

/-- Why an effective area is refused. -/
inductive AreaFault (α : Type) where
  /-- There is not one area for each bin. -/
  | areas (expected actual : Nat)
  /-- There is not one error for each bin. -/
  | errors (expected actual : Nat)
  /-- There is not one fraction of the exposure for each bin. -/
  | fractions (expected actual : Nat)
  /-- There is not one area for each bin of a replacement. -/
  | newAreas (expected actual : Nat)
  /-- There is not one error for each bin of a replacement. -/
  | newErrors (expected actual : Nat)
  /-- The fractions of the exposure do not fit the grid of a replacement. -/
  | newFractions (expected actual : Nat)
  /-- No area is positive. -/
  | noPositiveArea
  /-- The exposure is negative or no finite number. -/
  | exposure (value : α)
  /-- The column of areas does not fit the energy bins. -/
  | areaColumn (origin : String) (expected actual : Nat)
  /-- The column of errors does not fit the energy bins. -/
  | errorColumn (origin : String) (expected actual : Nat)
  /-- The column of fractions does not hold one value for each bin. -/
  | fractionColumn (origin : String)
  deriving Repr

/-- Why a response matrix is refused or cannot be used. -/
inductive MatrixFault (α : Type) where
  /-- There is not one row for each energy bin. -/
  | rows (expected actual : Nat)
  /-- No weight is left; so many groups had been dropped. -/
  | noWeight (dropped : Nat)
  /-- There is not one input value for each energy bin. -/
  | foldInput (expected actual : Nat)
  /-- There is not one output value for each channel. -/
  | foldOutput (expected actual : Nat)
  /-- There is not one notice flag for each channel. -/
  | noticeFlags (expected actual : Nat)
  /-- The channel numbers do not fit the channel energies. -/
  | channelColumn (expected actual : Nat)
  /-- The table holds no weights. -/
  | noWeightColumn (origin : String)
  /-- A column does not hold one cell for each energy bin. -/
  | columnRows (origin column : String) (expected actual : Nat)
  /-- The spans of a row add up to more than a 64-bit word holds, so that a group ends before it starts. No
  request is answered with this; the program stops. -/
  | crossedSpan (start stop : Nat)
  /-- A new channel axis leaves no weight above the threshold. -/
  | nothingLeft (channels : Nat) (lo hi threshold : α)
  deriving Repr

/-- The use of values given one for each fine bin. -/
inductive GroupedValues where
  /-- They are summed. -/
  | sums
  /-- They are added in quadrature. -/
  | errors
  /-- They are flags. -/
  | flags
  /-- They are bins. -/
  | bins
  deriving DecidableEq, Repr

/-- Why bins cannot be grouped. -/
inductive GroupingFault (α : Type) where
  /-- The mask leaves every bin out. -/
  | emptyMask
  /-- There is not one usability flag for each count. -/
  | usableFlags (expected actual : Nat)
  /-- The least count is not positive. -/
  | leastCount (value : α)
  /-- There is not one value for each fine bin. -/
  | values (use : GroupedValues) (expected actual : Nat)
  deriving Repr

/-- A number that scales counts. -/
inductive Scale where
  /-- The exposure time. -/
  | exposure
  /-- The size of the region that counts were taken from. -/
  | backscal
  deriving DecidableEq, Repr

/-- Why a spectrum or a background is refused. -/
inductive SpectrumFault (α : Type) where
  /-- A scale of a spectrum is not positive. -/
  | scale (name : Scale) (value : α)
  /-- A scale of a background is not positive. -/
  | backgroundScale (name : Scale) (value : α)
  /-- There is not one count for each bin. -/
  | counts (expected actual : Nat)
  /-- There is not one statistical error for each bin. -/
  | statErrors (expected actual : Nat)
  /-- There is not one systematic error for each bin. -/
  | sysErrors (expected actual : Nat)
  /-- There is not one quality flag for each bin. -/
  | quality (expected actual : Nat)
  /-- There is not one background count for each bin. -/
  | background (expected actual : Nat)
  /-- There is not one grouping flag for each bin. -/
  | mask (expected actual : Nat)
  /-- The table holds neither counts nor rates. -/
  | noCounts (origin : String)
  /-- The table holds no bin edges. -/
  | noEdges (origin : String)
  /-- The text lacks one of the columns of a spectrum. -/
  | textColumns (origin : String)
  deriving Repr

/-- Why a model flux cannot be folded. -/
inductive KernelFault where
  /-- A transmission factor is negative or no finite number. -/
  | transmission
  /-- There is not one flux value for each bin of the effective area. -/
  | flux (expected actual : Nat)
  /-- The effective area and the matrix have different numbers of energy bins. -/
  | areaMatrix (expected actual : Nat)
  /-- There is not one transmission factor for each bin of the effective area. -/
  | factors (expected actual : Nat)
  deriving DecidableEq, Repr

/-- Why a slot cannot be used. -/
inductive SlotFault where
  /-- The handle names nothing. -/
  | unknown (kind : ProductKind) (id : Handle kind)
  /-- A slot without users is released. -/
  | overReleased (kind : ProductKind) (id : Handle kind)
  /-- A slot with users is to be freed. -/
  | inUse (kind : ProductKind) (id : Handle kind) (users : Nat)
  deriving Repr

/-- Why a session refuses a request. -/
inductive SessionFault where
  /-- A matrix of several spectra is to be rebinned. -/
  | sharedMatrix (matrix : MatrixId) (sharers : Nat)
  /-- An effective area does not fit a matrix. -/
  | pairBins (pair : ResponsePair) (expected actual : Nat)
  /-- A matrix does not fit a spectrum. -/
  | pairChannels (spectrum : SpectrumId) (matrix : MatrixId) (expected actual : Nat)
  /-- The model gave no flux for an effective area. -/
  | noFlux (area : AreaId)
  /-- The model gave a wrong number of values. -/
  | modelLength (expected actual : Nat)
  /-- Channel values fit neither the working nor the observed bins. -/
  | workingChannels (expected actual : Nat)
  /-- Two responses of a spectrum have different numbers of channels. -/
  | unequalChannels (expected actual : Nat)
  /-- A spectrum has no response to fit with. -/
  | noResponse (spectrum : SpectrumId)
  /-- Response weights fit neither the working nor the observed bins. -/
  | fluxWeights (expected actual : Nat)
  deriving Repr

/-- Why a command of the command line is refused, besides faults of what it works on. -/
inductive CommandFault where
  /-- A spectrum in text form cannot be read. -/
  | spectrumUnreadable (path : String)
  /-- A matrix has no such energy row. -/
  | noRow (row rows : Nat) (path : String)
  deriving DecidableEq, Repr

/-- Why a request is refused. -/
inductive Fault (α : Type) where
  /-- Bins are no grid. -/
  | grid (fault : GridFault α)
  /-- A text names no unit. -/
  | unit (name : String)
  /-- Values cannot be moved between grids. -/
  | rebin (fault : RebinFault)
  /-- A table does not give what is asked of it. -/
  | table (fault : TableFault α)
  /-- A text is no table of columns. -/
  | columns (fault : ColumnsFault)
  /-- An effective area is refused. -/
  | area (fault : AreaFault α)
  /-- A matrix is refused. -/
  | matrix (fault : MatrixFault α)
  /-- Bins cannot be grouped. -/
  | grouping (fault : GroupingFault α)
  /-- A spectrum is refused. -/
  | spectrum (fault : SpectrumFault α)
  /-- A flux cannot be folded. -/
  | kernel (fault : KernelFault)
  /-- A slot cannot be used. -/
  | slot (fault : SlotFault)
  /-- A session refuses a request. -/
  | session (fault : SessionFault)
  /-- A command is refused. -/
  | command (fault : CommandFault)
  /-- A fault met while a product was made from a document of the given origin. -/
  | inDocument (origin : String) (fault : Fault α)
  deriving Repr

variable {α : Type}

instance : MonadLift (Except (GridFault α)) (Except (Fault α)) := ⟨Except.mapError Fault.grid⟩

instance : MonadLift (Except RebinFault) (Except (Fault α)) := ⟨Except.mapError Fault.rebin⟩

instance : MonadLift (Except SlotFault) (Except (Fault α)) := ⟨Except.mapError Fault.slot⟩

/-- Requires two lengths to agree. -/
def requireLength (fault : Nat → Nat → Fault α) (expected actual : Nat) : Except (Fault α) Unit :=
  if expected = actual then .ok () else .error (fault expected actual)

end SpectralResponse
