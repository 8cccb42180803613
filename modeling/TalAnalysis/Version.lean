namespace TalAnalysis

def version : String := "0.1.0-alpha.4"

end TalAnalysis
