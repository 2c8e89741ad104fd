import MiniOj.Judge.Properties.WorkerPool
import MiniOj.Db.Properties.Pool
import MiniOj.Judge.Properties.Memory
import MiniOj.Judge.Properties.Closing
import MiniOj.Judge.Properties.Inheritance
import MiniOj.Db.SeedLoader
import MiniOj.Db.Properties.Reading
import MiniOj.Db.Properties.Reset
import MiniOj.Http.Properties.RateLimiter
import MiniOj.Http.Properties.ClientKey
import MiniOj.Http.Properties.Csrf
import MiniOj.Db.Properties.Ownership
import MiniOj.Db.Properties.Updating
import MiniOj.Db.Properties.Accepting
import MiniOj.Http.Properties.CrossOrigin
import MiniOj.Http.Properties.Administration
import MiniOj.Http.Properties.Sessions
import MiniOj.Http.Properties.Reseeding
import MiniOj.Db.Properties.RoundTrip
import MiniOj.Http.Properties.Disclosure
import MiniOj.Db.Properties.Sql
import MiniOj.Util.Properties.Main
import MiniOj.Judge.Properties.Cleanup
import MiniOj.Judge.Properties.Pipeline
import MiniOj.Judge.Properties.Limits
import MiniOj.Http.Properties.RetryAfter
import MiniOj.Http.Properties.Listing
import MiniOj.Http.Properties.Cookies
import MiniOj.Util.Properties.Config
import MiniOj.Http.Properties.Numbers
import MiniOj.Http.Properties.Logout
import MiniOj.Http.Properties.Registration
import MiniOj.Auth.Properties.Password
import MiniOj.Judge.Properties.Output
import MiniOj.Judge.Properties.Diff
import MiniOj.Util.Properties.Timeouts
import MiniOj.Util.Properties.Dotenv
import MiniOj.Http.Properties.MachineLimiter
import MiniOj.Http.Properties.Limits
import MiniOj.Db.Properties.Results
import MiniOj.Frontend.AdminEdit
import MiniOj.Db.Properties.Replacing
import MiniOj.Db.Properties.Datetime
import MiniOj.Util.Properties.Logger
import MiniOj.Frontend.Properties.AdminEdit
import MiniOj.Frontend.Properties.Saving
import MiniOj.Frontend.Properties.Validation
import MiniOj.Frontend.Properties.Url
import MiniOj.Http.Properties.Views
import MiniOj.Http.Properties.Authentication
import MiniOj.Http.Properties.Verdicts
import MiniOj.Frontend.Properties.AdminList
import MiniOj.Frontend.Properties.ProblemPage
import MiniOj.Frontend.Properties.Requests
import MiniOj.Frontend.Properties.AdminRequests
