namespace LayerPlayback

/-!
# TOML values
-/

/-- A TOML value. -/
inductive Toml where
  | string (text : String)
  | integer (value : Int)
  | float (value : Float)
  | bool (value : Bool)
  /-- A date, a time, or both; nothing depends on which. -/
  | datetime
  | array (items : List Toml)
  | table (entries : List (String × Toml))
  deriving Repr

end LayerPlayback
